import ConsentGate.Entries
import ConsentGate.Json.Basic
import ConsentGate.Ordered.Set

/-!
# Records in JSON documents

A record is written as an object, or as an array of its fields in their fixed order. In an object
the fields may come in any order and unknown ones are passed over, but a known field stands once; an
array may end early, but has no items beyond the last field.

Results:

* `fields?_record`, `list?_map`, `set?_ofSet`, `byte?_ofByte`, `word?_ofWord`: what is written for a
  record, a list, a set or a number reads as what it was.
-/

namespace ConsentGate.Json

/-- The named values of an object; none when some name denotes no text. -/
def named? (fields : List (Quoted × Json)) : Option (List (String × Json)) :=
  fields.mapM fun (name, value) => name.text?.map fun text => (text, value)

/-- The value of each field of a record with the given names. -/
def fields? (names : List String) : Json → Option (String → Option Json)
  | object fields =>
    (named? fields).bind fun named =>
      if names.all fun name => (named.map Prod.fst).count name ≤ 1 then
        some fun name => named.lookup name
      else none
  | array items =>
    if items.length ≤ names.length then some fun name => (names.zip items).lookup name else none
  | _ => none

/-- The value of a field that may be left out. -/
def optional {α : Type} (field : Option Json) (read? : Json → Option α) (default : α) : Option α :=
  field.elim (some default) read?

/-- The value of a field that must be there. -/
def required {α : Type} (field : Option Json) (read? : Json → Option α) : Option α :=
  field.bind read?

/-- The values of an array. -/
def list? {α : Type} (read? : Json → Option α) : Json → Option (List α)
  | array items => items.mapM read?
  | _ => none

/-- The number of a document, if it is below 256. -/
def byte? (document : Json) : Option UInt8 :=
  document.nat?.bind fun n => if n < UInt8.size then some (.ofNat n) else none

/-- The number of a document, if it is below 2^32. -/
def word? (document : Json) : Option UInt32 :=
  document.nat?.bind fun n => if n < UInt32.size then some (.ofNat n) else none

/-- The set of the numbers of an array. -/
def set? {α : Type} [LT α] [DecidableLT α] [Ascends α] (read? : Json → Option α)
    (document : Json) : Option (OrderedSet α) :=
  (list? read? document).map OrderedSet.ofList

/-- The word for one of several alternatives: a text, or an object of one field with that name and
the value null. -/
def variant? : Json → Option String
  | string q => q.text?
  | object [(name, null)] => name.text?
  | _ => none

/-- The document of a number below 256. -/
def ofByte (n : UInt8) : Json := ofNat n.toNat

/-- The document of a number below 2^32. -/
def ofWord (n : UInt32) : Json := ofNat n.toNat

/-- The array of the members of a set. -/
def ofSet {α : Type} [LT α] (write : α → Json) (s : OrderedSet α) : Json :=
  array (s.toList.map write)

/-- The document of a value that may be missing. -/
def ofOption {α : Type} (write : α → Json) : Option α → Json
  | none => null
  | some a => write a

/-! ## What is written reads back -/

theorem named?_map (fields : List (String × Json)) :
    named? (fields.map fun (name, value) => (.ofText name, value)) = some fields := by
  rw [named?]
  apply mapM_map_of_readsBack
  rintro ⟨name, value⟩
  simp only [Quoted.text?_ofText, Option.map_some]

/-- The fields of a record are those that it was written with. -/
theorem fields?_record {names : List String} {fields : List (String × Json)}
    (hnames : fields.map Prod.fst = names) (h : names.Nodup) :
    ∃ value, (record fields).fields? names = some value ∧
      ∀ field ∈ fields, value field.1 = some field.2 := by
  subst hnames
  have hcount : ((fields.map Prod.fst).all fun name =>
      (fields.map Prod.fst).count name ≤ 1) = true :=
    List.all_eq_true.2 fun name _ => decide_eq_true (List.nodup_iff_count.1 h name)
  refine ⟨fun name => fields.lookup name, ?_, fun field hfield => lookup_of_mem h hfield⟩
  simp only [record, fields?, named?_map, Option.bind_some, if_pos hcount]

theorem list?_map {α : Type} {read? : Json → Option α} {write : α → Json}
    (h : ∀ a, read? (write a) = some a) (as : List α) :
    list? read? (array (as.map write)) = some as := by
  rw [list?, mapM_map_of_readsBack h]

theorem set?_ofSet {α : Type} [LT α] [DecidableLT α] [Ascends α] {read? : Json → Option α}
    {write : α → Json} (h : ∀ a, read? (write a) = some a) (s : OrderedSet α) :
    set? read? (ofSet write s) = some s := by
  rw [set?, ofSet, list?_map h, Option.map_some, OrderedSet.ofList_toList]

theorem byte?_ofByte (n : UInt8) : byte? (ofByte n) = some n := by
  simp [byte?, ofByte, nat?_ofNat, n.toNat_lt]

theorem word?_ofWord (n : UInt32) : word? (ofWord n) = some n := by
  simp [word?, ofWord, nat?_ofNat, n.toNat_lt]

theorem variant?_ofString (s : String) : variant? (ofString s) = some s := Quoted.text?_ofText s

end ConsentGate.Json
