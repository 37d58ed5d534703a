import ConsentGate.Json.Record
import ConsentGate.Proofs.Json.RoundTrip
import ConsentGate.Proofs.Reading
import Mathlib.Logic.Relation

/-!
# Edits of documents

An object from which a record is read may be edited in ways that do not matter to its reader: its
fields are put in another order, fields with names that the record does not have are inserted, and
the values of its own fields are edited in turn, such as an array of ids whose items are put in
another order or repeated. What is found under each name of the record is then the same, or an
edited value.

Results:

* `keeps_rearranges`, `keeps_editsItem`: the set of a rearranged array, and the list of an array
  with an edited item, are read as before.
* `Reshapes.fields?`: an edit of an object keeps what is found under the names of a record, up to
  edited values.
* `keepsWellFormed_rearranges`, `keepsWellFormed_editsItem`, `keepsWellFormed_reshapes`: edits keep
  documents well-formed.
-/

namespace ConsentGate

namespace Json

/-- What is read from a document is read from the edited one. -/
def Keeps {α : Type} (edits : Json → Json → Prop) (read? : Json → Option α) : Prop :=
  ∀ ⦃document document' : Json⦄, edits document document' →
    ∀ ⦃a : α⦄, read? document = some a → read? document' = some a

/-- An edit of a well-formed document gives a well-formed one. -/
def KeepsWellFormed (edits : Json → Json → Prop) : Prop :=
  ∀ ⦃document document' : Json⦄, edits document document' →
    document.WellFormed → document'.WellFormed

/-- The value of a field with one of the given names is edited. -/
def Under (names : List String) (edits : Json → Json → Prop) (name : String) (value value' : Json) :
    Prop :=
  name ∈ names ∧ edits value value'

section Keeps

variable {α : Type} {edits edits' : Json → Json → Prop} {read? : Json → Option α}

theorem Keeps.or (h : Keeps edits read?) (h' : Keeps edits' read?) :
    Keeps (fun document document' => edits document document' ∨ edits' document document') read? :=
  fun _ _ hedit => hedit.elim (fun hedit => h hedit) fun hedit => h' hedit

theorem Keeps.reflTransGen (h : Keeps edits read?) : Keeps (Relation.ReflTransGen edits) read? := by
  intro document document' hedits a ha
  induction hedits with
  | refl => exact ha
  | tail _ hedit ih => exact h hedit ih

theorem Keeps.under (h : Keeps edits read?) (names : List String) (name : String) :
    Keeps (Under names edits name) read? := fun _ _ hedit => h hedit.2

theorem keeps_under_of_not_mem {names : List String} {name : String} (h : name ∉ names) :
    Keeps (Under names edits name) read? := fun _ _ hedit => absurd hedit.1 h

theorem KeepsWellFormed.or (h : KeepsWellFormed edits) (h' : KeepsWellFormed edits') :
    KeepsWellFormed fun document document' =>
      edits document document' ∨ edits' document document' :=
  fun _ _ hedit => hedit.elim (fun hedit => h hedit) fun hedit => h' hedit

theorem KeepsWellFormed.reflTransGen (h : KeepsWellFormed edits) :
    KeepsWellFormed (Relation.ReflTransGen edits) := by
  intro document document' hedits hdocument
  induction hedits with
  | refl => exact hdocument
  | tail _ hedit ih => exact h hedit ih

theorem KeepsWellFormed.under (h : KeepsWellFormed edits) (names : List String) (name : String) :
    KeepsWellFormed (Under names edits name) := fun _ _ hedit => h hedit.2

end Keeps

/-! ## Arrays -/

/-- The items of an array are put in another order or repeated. -/
inductive Rearranges : Json → Json → Prop
  | items {items items' : List Json} (same : ∀ item, item ∈ items' ↔ item ∈ items) :
    Rearranges (.array items) (.array items')

/-- One item of an array is edited. -/
inductive EditsItem (edits : Json → Json → Prop) : Json → Json → Prop
  | item {before after : List Json} {item item' : Json} (h : edits item item') :
    EditsItem edits (.array (before ++ item :: after)) (.array (before ++ item' :: after))

/-- The set of a rearranged array is the same. -/
theorem keeps_rearranges {α : Type} [LT α] [DecidableLT α] [Ascends α] (read? : Json → Option α) :
    Keeps Rearranges (set? read?) := by
  rintro _ _ ⟨same⟩ s hs
  obtain ⟨as, has, rfl⟩ := Option.map_eq_some_iff.1 hs
  obtain ⟨as', has'⟩ := exists_mapM_iff.2 fun item hitem =>
    exists_mapM_iff.1 ⟨as, has⟩ item ((same item).1 hitem)
  refine Option.map_eq_some_iff.2 ⟨as', has', OrderedSet.ext fun a => ?_⟩
  rw [OrderedSet.mem_ofList, OrderedSet.mem_ofList, mem_iff_of_mapM has, mem_iff_of_mapM has']
  simp only [same]

/-- The list of an array with an edited item is the same if the item is read as before. -/
theorem keeps_editsItem {α : Type} {edits : Json → Json → Prop} {read? : Json → Option α}
    (h : Keeps edits read?) : Keeps (EditsItem edits) (list? read?) := by
  rintro _ _ ⟨hitem⟩ as has
  exact mapM_replace (h hitem) has

theorem keepsWellFormed_rearranges : KeepsWellFormed Rearranges := by
  rintro _ _ ⟨same⟩ h
  exact itemsWellFormed_iff.2 fun item hitem => itemsWellFormed_iff.1 h item ((same item).1 hitem)

theorem keepsWellFormed_editsItem {edits : Json → Json → Prop} (hedits : KeepsWellFormed edits) :
    KeepsWellFormed (EditsItem edits) := by
  rintro _ _ ⟨hitem⟩ h
  rw [Json.WellFormed, itemsWellFormed_iff, List.forall_mem_append, List.forall_mem_cons] at h ⊢
  exact ⟨h.1, hedits hitem h.2.1, h.2.2⟩

/-! ## Objects -/

/-- An object from which a record with the given names is read is edited. -/
inductive Reshapes (names : List String) (edits : String → Json → Json → Prop) : Json → Json → Prop
  /-- The fields are put in another order. -/
  | reorder {fields fields' : List (Quoted × Json)} (perm : fields.Perm fields') :
    Reshapes names edits (.object fields) (.object fields')
  /-- A field with another name is inserted. The name denotes a text, since one that denotes none,
  such as a lone surrogate escape, is not the name of a field; the value may be any well-formed
  document, also one whose strings denote no text. -/
  | insert {before after : List (Quoted × Json)} {name : Quoted} {text : String} {value : Json}
    (denotes : name.text? = some text) (unknown : text ∉ names) (nameWellFormed : name.WellFormed)
    (wellFormed : value.WellFormed) :
    Reshapes names edits (.object (before ++ after)) (.object (before ++ (name, value) :: after))
  /-- The value of a field is edited. -/
  | field {before after : List (Quoted × Json)} {name : Quoted} {text : String}
    {value value' : Json} (denotes : name.text? = some text) (h : edits text value value') :
    Reshapes names edits (.object (before ++ (name, value) :: after))
      (.object (before ++ (name, value') :: after))

/-- What is found under a name after an edit: the same, or an edited value. -/
def FoundAfter (edits : Json → Json → Prop) (found found' : Option Json) : Prop :=
  found' = found ∨ ∃ value value', found = some value ∧ found' = some value' ∧ edits value value'

theorem named?_append_eq_some_iff {before after : List (Quoted × Json)}
    {named : List (String × Json)} :
    named? (before ++ after) = some named ↔
      ∃ front back, named? before = some front ∧ named? after = some back ∧
        named = front ++ back := by
  simp only [named?, List.mapM_append, Option.bind_eq_bind, Option.bind_eq_some_iff,
    Option.pure_def, Option.some.injEq]
  constructor
  · rintro ⟨front, hfront, back, hback, rfl⟩
    exact ⟨front, back, hfront, hback, rfl⟩
  · rintro ⟨front, back, hfront, hback, rfl⟩
    exact ⟨front, hfront, back, hback, rfl⟩

theorem named?_split {before after : List (Quoted × Json)} {name : Quoted} {v : Json}
    {text : String} (denotes : name.text? = some text) {named : List (String × Json)} :
    named? (before ++ (name, v) :: after) = some named ↔
      ∃ front back, named? before = some front ∧ named? after = some back ∧
        named = front ++ (text, v) :: back := by
  rw [named?_append_eq_some_iff]
  refine exists_congr fun front => ?_
  simp only [named?, List.mapM_cons, denotes, Option.map_some, Option.bind_eq_bind,
    Option.bind_some, Option.bind_eq_some_iff, Option.pure_def, Option.some.injEq]
  constructor
  · rintro ⟨_, hfront, ⟨back, hback, rfl⟩, rfl⟩
    exact ⟨back, hfront, hback, rfl⟩
  · rintro ⟨back, hfront, hback, rfl⟩
    exact ⟨_, hfront, ⟨back, hback, rfl⟩, rfl⟩

/-- In an object, the fields of a record are looked up, each of which stands at most once. -/
theorem fields?_object_eq_some_iff {names : List String} {fields : List (Quoted × Json)}
    {find : String → Option Json} :
    (object fields).fields? names = some find ↔
      ∃ named, named? fields = some named ∧
        (∀ name ∈ names, (named.map Prod.fst).count name ≤ 1) ∧
        find = fun name => named.lookup name := by
  rw [fields?, Option.bind_eq_some_iff]
  refine exists_congr fun named => and_congr_right fun _ => ?_
  rw [Option.ite_none_right_eq_some, List.all_eq_true, Option.some.injEq, eq_comm]
  simp only [decide_eq_true_eq]

/-- The values of one field are found where a field with that name has been edited. -/
theorem foundAfter_split {edits : String → Json → Json → Prop} {front back : List (String × Json)}
    {text : String} {value value' : Json} (h : edits text value value') (name : String) :
    FoundAfter (edits name) ((front ++ (text, value) :: back).lookup name)
      ((front ++ (text, value') :: back).lookup name) := by
  rw [List.lookup_append, List.lookup_append, List.lookup_cons, List.lookup_cons]
  cases front.lookup name with
  | some found => exact .inl rfl
  | none =>
    cases hname : name == text with
    | false => exact .inl rfl
    | true =>
      obtain rfl := eq_of_beq hname
      exact .inr ⟨value, value', rfl, rfl, h⟩

/-- An edit of an object keeps what is found under the names of the record, up to edited values. -/
theorem Reshapes.fields? {names : List String} {edits : String → Json → Json → Prop}
    {document document' : Json} (h : Reshapes names edits document document')
    {find : String → Option Json} (hfind : document.fields? names = some find) :
    ∃ find', document'.fields? names = some find' ∧
      ∀ name ∈ names, FoundAfter (edits name) (find name) (find' name) := by
  cases h with
  | reorder perm =>
    obtain ⟨named, hnamed, hcount, rfl⟩ := fields?_object_eq_some_iff.1 hfind
    obtain ⟨named', hnamed', hperm⟩ := exists_mapM_of_perm perm hnamed
    have hcount' : ∀ name ∈ names, (named'.map Prod.fst).count name ≤ 1 := fun name hname =>
      (hperm.map Prod.fst).count_eq name ▸ hcount name hname
    exact ⟨_, fields?_object_eq_some_iff.2 ⟨named', hnamed', hcount', rfl⟩, fun name hname =>
      .inl (lookup_eq_of_perm_of_count hperm (hcount' name hname))⟩
  | @insert before after name text value denotes unknown =>
    obtain ⟨named, hnamed, hcount, rfl⟩ := fields?_object_eq_some_iff.1 hfind
    obtain ⟨front, back, hfront, hback, rfl⟩ := named?_append_eq_some_iff.1 hnamed
    have hnamed' := (named?_split (v := value) denotes).2 ⟨front, back, hfront, hback, rfl⟩
    have hne : ∀ name ∈ names, text ≠ name := fun name hname heq => unknown (heq ▸ hname)
    refine ⟨_, fields?_object_eq_some_iff.2 ⟨_, hnamed', fun name hname => ?_, rfl⟩,
      fun name hname => .inl ?_⟩
    · simpa [List.count_cons, hne name hname] using hcount name hname
    · simp only [List.lookup_append, List.lookup_cons, beq_false_of_ne (hne name hname).symm]
  | @field before after name text value value' denotes hedit =>
    obtain ⟨named, hnamed, hcount, rfl⟩ := fields?_object_eq_some_iff.1 hfind
    obtain ⟨front, back, hfront, hback, rfl⟩ := (named?_split denotes).1 hnamed
    have hnamed' := (named?_split (v := value') denotes).2 ⟨front, back, hfront, hback, rfl⟩
    refine ⟨_, fields?_object_eq_some_iff.2 ⟨_, hnamed', fun name hname => ?_, rfl⟩,
      fun name _ => foundAfter_split hedit name⟩
    simpa only [List.map_append, List.map_cons] using hcount name hname

theorem wellFormed_of_perm {fields fields' : List (Quoted × Json)} (perm : fields.Perm fields')
    (h : (object fields).WellFormed) : (object fields').WellFormed :=
  fieldsWellFormed_iff.2 fun field hfield =>
    fieldsWellFormed_iff.1 h field (perm.mem_iff.2 hfield)

theorem wellFormed_of_field {before after : List (Quoted × Json)} {name : Quoted}
    {value value' : Json} (hvalue : value.WellFormed → value'.WellFormed)
    (h : (object (before ++ (name, value) :: after)).WellFormed) :
    (object (before ++ (name, value') :: after)).WellFormed := by
  rw [Json.WellFormed, fieldsWellFormed_iff, List.forall_mem_append, List.forall_mem_cons] at h ⊢
  exact ⟨h.1, ⟨h.2.1.1, hvalue h.2.1.2⟩, h.2.2⟩

/-- An edit of an object keeps it well-formed. -/
theorem keepsWellFormed_reshapes {names : List String} {edits : String → Json → Json → Prop}
    (hedits : ∀ name, KeepsWellFormed (edits name)) : KeepsWellFormed (Reshapes names edits) := by
  intro document document' hstep h
  cases hstep with
  | reorder perm => exact wellFormed_of_perm perm h
  | insert _ _ hname hvalue =>
    rw [Json.WellFormed, fieldsWellFormed_iff, List.forall_mem_append] at h ⊢
    rw [List.forall_mem_cons]
    exact ⟨h.1, ⟨hname, hvalue⟩, h.2⟩
  | field _ hedit => exact wellFormed_of_field (fun hvalue => hedits _ hedit hvalue) h

/-! ## Records -/

/-- A record is read from an edited object if it is read from what is found there. -/
theorem keeps_reshapes {α : Type} {names : List String} {edits : String → Json → Json → Prop}
    {read? : (String → Option Json) → Option α}
    (h : ∀ find find', (∀ name ∈ names, FoundAfter (edits name) (find name) (find' name)) →
      ∀ a, read? find = some a → read? find' = some a) :
    Keeps (Reshapes names edits) fun document => (document.fields? names).bind read? := by
  intro document document' hedit a ha
  obtain ⟨find, hfind, ha⟩ := Option.bind_eq_some_iff.1 ha
  obtain ⟨find', hfind', hfound⟩ := hedit.fields? hfind
  exact Option.bind_eq_some_iff.2 ⟨find', hfind', h find find' hfound a ha⟩

section Fields

variable {α : Type} {edits : Json → Json → Prop} {found found' : Option Json}
  {read? : Json → Option α}

/-- A field that is left out, or read as before. -/
theorem FoundAfter.optional (h : FoundAfter edits found found') (hread : Keeps edits read?)
    {default : α} (a : α) (ha : Json.optional found read? default = some a) :
    Json.optional found' read? default = some a := by
  rcases h with rfl | ⟨value, value', rfl, rfl, hedit⟩
  · exact ha
  · exact hread hedit ha

/-- A field that is read as before. -/
theorem FoundAfter.required (h : FoundAfter edits found found') (hread : Keeps edits read?) (a : α)
    (ha : Json.required found read? = some a) : Json.required found' read? = some a := by
  rcases h with rfl | ⟨value, value', rfl, rfl, hedit⟩
  · exact ha
  · exact hread hedit ha

end Fields

end Json

end ConsentGate
