import ConsentGate.Proofs.Json.RoundTrip
import ConsentGate.Proofs.Reading
import ConsentGate.VendorList.Json

/-!
# Reading a written vendor list

A vendor list is written with all its fields, and reads back as it was when every entry stands under
its own id; otherwise the entry with the smallest key that is not its id is the fault, in the order
of the numbers and not of their digits. No list that is read, and none that is made of declarations,
holds such an entry, so that whatever is looked up in it stands under the id that was looked up.

Results:

* `VendorList.ofText_toText`: what the text of a vendor list reads as.
* `VendorList.find?_of_vendors?`: of several entries with one key the last stays.
* `VendorList.Consistent.resolvesIds`: what looking up a vendor gives.
* `VendorList.keepsIds`: what is read, what is made of declarations, and what reads back.
-/

namespace ConsentGate

/-! ## Keys -/

/-- No digit needs an escape. -/
theorem Quoted.pieceOf_digit {c : Char} (h : c.isDigit = true) : pieceOf c = .plain c := by
  have hshort : Escape.ofChar? c = none := by
    cases hescape : Escape.ofChar? c with
    | none => rfl
    | some e =>
      have hdigit : e.char.isDigit = true := by rw [Escape.char_of_ofChar? hescape, h]
      cases e <;> exact absurd hdigit (by decide)
  have hcontrol : ¬ c < ' ' := by
    intro hlt
    have hlow : c.toNat < 32 := hlt
    have hdigit : 48 ≤ c.toNat := by
      simp only [Char.isDigit, Bool.and_eq_true, decide_eq_true_eq] at h
      exact h.1
    omega
  rw [pieceOf, hshort]
  exact if_neg hcontrol

theorem Quoted.ofText_digits {s : List Char} (h : ∀ c ∈ s, c.isDigit = true) :
    ofText (.ofList s) = s.map Piece.plain := by
  rw [ofText, String.toList_ofList]
  exact List.map_congr_left fun c hc => pieceOf_digit (h c hc)

theorem Quoted.mapM_plain?_ofText {s : List Char} (h : ∀ c ∈ s, c.isDigit = true) :
    (ofText (.ofList s)).mapM Piece.plain? = some s := by
  have hplain (c : Char) : (Piece.plain c).plain? = some c := rfl
  rw [ofText_digits h, mapM_map_of_readsBack hplain]

/-- Plain pieces are those of their characters. -/
theorem Quoted.eq_map_of_mapM_plain? {name : Quoted} {s : List Char}
    (h : name.mapM Piece.plain? = some s) : name = s.map Piece.plain := by
  rw [← List.forall₂_eq_eq_eq, List.forall₂_map_right_iff]
  refine (mapM_eq_some_iff.1 h).imp fun piece c hc => ?_
  cases piece with
  | plain d => exact congrArg Piece.plain (Option.some.inj hc)
  | short _ | unit _ => cases hc

/-- An id is read back from its digits. -/
theorem vendorKey?_toString (v : VendorId) : vendorKey? (.ofText (toString v.toNat)) = some v := by
  have hdigits := Decimal.isDigits_toDigits v.toNat
  have hname : (Quoted.ofText (toString v.toNat)).mapM Piece.plain? =
      some (Nat.toDigits 10 v.toNat) := by
    rw [Nat.toString_eq_ofList_toDigits, Quoted.mapM_plain?_ofText hdigits.2]
  have hzero : Nat.toDigits 10 v.toNat = ['0'] ∨
      (Nat.toDigits 10 v.toNat).head? ≠ some '0' := by
    cases hd : Nat.toDigits 10 v.toNat with
    | nil => exact .inr nofun
    | cons c s =>
      by_cases hc : c = '0'
      · subst hc
        rw [Decimal.tail_eq_nil_of_toDigits hd]
        exact .inl rfl
      · exact .inr fun hhead => hc (Option.some.inj hhead)
  have hvalue : Nat.ofDigitChars 10 (Nat.toDigits 10 v.toNat) 0 = v.toNat :=
    Nat.ofDigitChars_ten_toDigits
  rw [vendorKey?, hname, Option.bind_eq_bind, Option.bind_some,
    if_pos ⟨hdigits.1, List.all_eq_true.2 hdigits.2, hzero⟩]
  simp only [hvalue, if_pos v.toNat_lt, UInt32.ofNat_toNat]

/-- An id is written in one way. -/
theorem vendorKey?_eq_some_iff {name : Quoted} {v : VendorId} :
    vendorKey? name = some v ↔ name = .ofText (toString v.toNat) := by
  refine ⟨fun h => ?_, fun h => h ▸ vendorKey?_toString v⟩
  obtain ⟨digits, hplain, h⟩ := Option.bind_eq_some_iff.1 h
  obtain ⟨⟨hne, hdigit, hzero⟩, h⟩ := Option.ite_none_right_eq_some.1 h
  obtain ⟨hlt, h⟩ := Option.ite_none_right_eq_some.1 h
  obtain rfl := Option.some.inj h
  have hdigits : Decimal.IsDigits digits := ⟨hne, List.all_eq_true.1 hdigit⟩
  rw [Nat.toString_eq_ofList_toDigits, UInt32.toNat_ofNat_of_lt' hlt,
    Decimal.toDigits_ofDigitChars hdigits hzero, Quoted.ofText_digits hdigits.2]
  exact Quoted.eq_map_of_mapM_plain? hplain

/-! ## Documents -/

namespace Declaration

theorem ofJson?_toJson (d : Declaration) : ofJson? d.toJson = some d := by
  obtain ⟨value, hfields, hvalue⟩ : ∃ value, d.toJson.fields? fieldNames = some value ∧ _ :=
    Json.fields?_record rfl (by decide)
  simp only [List.forall_mem_cons] at hvalue
  obtain ⟨hid, hpurposes, hinterests, hflexible, hfeatures, -⟩ := hvalue
  simp only [ofJson?, hfields, hid, hpurposes, hinterests, hflexible, hfeatures,
    Option.bind_eq_bind, Option.bind_some, Option.pure_def, Option.elim_some, Json.required,
    Json.optional, Json.word?_ofWord, Json.set?_ofSet Json.byte?_ofByte]

theorem wellFormed_toJson (d : Declaration) : d.toJson.WellFormed := by
  have hbytes (s : OrderedSet UInt8) : (Json.ofSet .ofByte s).WellFormed :=
    Json.wellFormed_map (fun _ => Json.wellFormed_ofNat _) _
  refine Json.wellFormed_record fun field hfield => ?_
  simp only [List.mem_cons, List.not_mem_nil, or_false] at hfield
  rcases hfield with rfl | rfl | rfl | rfl | rfl
  · exact Json.wellFormed_ofNat _
  · exact hbytes _
  · exact hbytes _
  · exact hbytes _
  · exact hbytes _

end Declaration

namespace VendorList

/-- The vendors of a list are read back from their fields. -/
theorem vendors?_record (m : OrderedMap VendorId Declaration) :
    vendors? (.record (m.entries.map fun (id, d) => (toString id.toNat, d.toJson))) = some m := by
  rw [Json.record, vendors?, List.map_map, mapM_map_of_readsBack, Option.map_some,
    OrderedMap.ofList_entries]
  rintro ⟨id, d⟩
  simp only [Function.comp_apply, vendorKey?_toString, Declaration.ofJson?_toJson,
    Option.bind_eq_bind, Option.bind_some, Option.pure_def]

theorem ofJson?_toJson (l : VendorList) : ofJson? l.toJson = some l := by
  obtain ⟨value, hfields, hvalue⟩ : ∃ value, l.toJson.fields? fieldNames = some value ∧ _ :=
    Json.fields?_record rfl (by decide)
  simp only [List.forall_mem_cons] at hvalue
  obtain ⟨hversion, hpolicy, hvendors, -⟩ := hvalue
  simp only [ofJson?, hfields, hversion, hpolicy, hvendors, Option.bind_eq_bind, Option.bind_some,
    Option.pure_def, Option.elim_some, Json.required, Json.optional, Json.word?_ofWord,
    vendors?_record]

theorem wellFormed_toJson (l : VendorList) : l.toJson.WellFormed := by
  refine Json.wellFormed_record fun field hfield => ?_
  simp only [List.mem_cons, List.not_mem_nil, or_false] at hfield
  rcases hfield with rfl | rfl | rfl
  · exact Json.wellFormed_ofNat _
  · exact Json.wellFormed_ofNat _
  · refine Json.wellFormed_record fun entry hentry => ?_
    obtain ⟨⟨id, d⟩, -, rfl⟩ := List.mem_map.1 hentry
    exact d.wellFormed_toJson

/-- A text whose document is a vendor list is read as that list, unless an entry of it stands under
another id. -/
theorem ofText_of_ofJson? {text : String} {l : VendorList}
    (h : (Json.read? text).bind ofJson? = some l) :
    ofText text =
      l.mismatch?.elim (.ok l) fun entry => .error (.mismatched entry.1 entry.2.id) := by
  simp only [ofText, h]
  cases l.mismatch? <;> rfl

/-- What the text of a vendor list reads as. -/
theorem ofText_toText (l : VendorList) :
    ofText l.toText =
      l.mismatch?.elim (.ok l) fun entry => .error (.mismatched entry.1 entry.2.id) := by
  apply ofText_of_ofJson?
  rw [toText, Json.read?_render Json.Layout.spaced_compact l.wellFormed_toJson, Option.bind_some,
    ofJson?_toJson]

/-- A list that is read is what its document writes, and no entry of it stands under another id. -/
theorem ofText_eq_ok_iff {text : String} {l : VendorList} :
    ofText text = .ok l ↔ (Json.read? text).bind ofJson? = some l ∧ l.Consistent := by
  rw [consistent_iff_mismatch?]
  exact accepted_iff (fun hnone => ⟨.malformed, by rw [ofText, hnone]⟩) fun _ => ofText_of_ofJson?

/-! ## Entries under other ids -/

/-- The fault is the entry with the smallest key that is not its id. -/
theorem smallest_of_mismatch? {l : VendorList} {key : VendorId} {d : Declaration}
    (h : l.mismatch? = some (key, d)) :
    (key, d) ∈ l.vendors.entries ∧ key ≠ d.id ∧
      ∀ entry ∈ l.vendors.entries, entry.1 ≠ entry.2.id → key ≤ entry.1 := by
  obtain ⟨hother, before, after, hsplit, hbefore⟩ := List.find?_eq_some_iff_append.1 h
  have hascending := l.vendors.ascending
  rw [hsplit] at hascending
  refine ⟨List.mem_of_find?_eq_some h, by simpa using hother, fun entry hentry hmismatch => ?_⟩
  rw [hsplit] at hentry
  rcases List.mem_append.1 hentry with hentry | hentry
  · have hfits := hbefore entry hentry
    simp [hmismatch] at hfits
  · rcases List.mem_cons.1 hentry with rfl | hentry
    · exact UInt32.le_refl _
    · have hlater := (List.pairwise_append.1 hascending).2.1
      exact UInt32.le_of_lt (List.rel_of_pairwise_cons hlater hentry)

/-- What an entry of a document writes. -/
def Writes (field : Quoted × Json) (entry : VendorId × Declaration) : Prop :=
  vendorKey? field.1 = some entry.1 ∧ Declaration.ofJson? field.2 = some entry.2

theorem writes_of_mapM {fields : List (Quoted × Json)} {entries : List (VendorId × Declaration)}
    (h : (fields.mapM fun (name, value) => do
      return (← vendorKey? name, ← Declaration.ofJson? value)) = some entries) :
    List.Forall₂ Writes fields entries := by
  refine (mapM_eq_some_iff.1 h).imp fun (name, value) entry hentry => ?_
  obtain ⟨key, hkey, hentry⟩ := Option.bind_eq_some_iff.1 hentry
  obtain ⟨d, hd, hentry⟩ := Option.bind_eq_some_iff.1 hentry
  obtain rfl := Option.some.inj hentry
  exact ⟨hkey, hd⟩

/-- Of several entries with one key the last stays. -/
theorem find?_of_vendors? {fields : List (Quoted × Json)} {m : OrderedMap VendorId Declaration}
    (h : vendors? (.object fields) = some m) (v : VendorId) :
    m.find? v = (fields.reverse.find? fun field => vendorKey? field.1 = some v).bind
      fun field => Declaration.ofJson? field.2 := by
  obtain ⟨entries, hentries, rfl⟩ := Option.map_eq_some_iff.1 h
  rw [OrderedMap.ofList, OrderedMap.find?_foldl_insert, OrderedMap.find?_empty, Option.or_none]
  have hwrites := List.forall₂_reverse_iff.2 (writes_of_mapM hentries)
  generalize fields.reverse = earlier, entries.reverse = earlierEntries at hwrites ⊢
  induction hwrites with
  | nil => rfl
  | @cons field entry _ _ hfield _ ih =>
    obtain ⟨hkey, hd⟩ := hfield
    rw [List.find?_cons, List.find?_cons, hkey]
    by_cases hv : entry.1 = v
    · simp [hv, hd]
    · simpa [hv] using ih

/-! ## Looking up -/

/-- Whatever is looked up stands under the id that was looked up: a listed vendor has its own entry,
and any other declares nothing. -/
structure ResolvesIds (l : VendorList) : Prop where
  consistent : ∀ entry ∈ l.vendors.entries, entry.1 = entry.2.id
  id : ∀ v, (l.source.resolve (some v)).id = v
  listed : ∀ v d, (v, d) ∈ l.vendors.entries → l.source.resolve (some v) = d
  unlisted : ∀ v, v ∉ l.vendors.keys → l.source.resolve (some v) = .none v

theorem resolve_of_source {l : VendorList} {v : VendorId} {d : Declaration}
    (h : l.source v = some d) : l.source.resolve (some v) = d := by
  rw [DeclarationSource.resolve, Option.bind_some, h, Option.getD_some]

theorem resolve_of_source_eq_none {l : VendorList} {v : VendorId} (h : l.source v = none) :
    l.source.resolve (some v) = .none v := by
  rw [DeclarationSource.resolve, Option.bind_some, h, Option.getD_none, Option.getD_some]

theorem Consistent.resolvesIds {l : VendorList} (h : l.Consistent) : l.ResolvesIds where
  consistent := h
  id v := by
    cases hv : l.source v with
    | none => rw [resolve_of_source_eq_none hv, Declaration.none]
    | some d =>
      rw [resolve_of_source hv]
      exact (h _ (OrderedMap.find?_eq_some_iff.1 hv)).symm
  listed v d hentry := resolve_of_source (OrderedMap.find?_eq_some_iff.2 hentry)
  unlisted v hkey := by
    apply resolve_of_source_eq_none
    rw [Option.eq_none_iff_forall_ne_some]
    intro d hd
    exact hkey (List.mem_map_of_mem (OrderedMap.find?_eq_some_iff.1 hd))

/-- A list holds what the last entries of a document write: none if the document has no vendors, and
else for each id the last of the entries under it. -/
def HoldsLast (l : VendorList) (document : Json) : Prop :=
  ∃ value, document.fields? fieldNames = some value ∧
    (value "vendors" = none → l.vendors = ∅) ∧
    ∀ vendors, value "vendors" = some vendors → ∃ fields, vendors = .object fields ∧
      ∀ v, l.source v = (fields.reverse.find? fun field => vendorKey? field.1 = some v).bind
        fun field => Declaration.ofJson? field.2

theorem holdsLast_of_ofJson? {document : Json} {l : VendorList} (h : ofJson? document = some l) :
    l.HoldsLast document := by
  obtain ⟨value, hvalue, h⟩ := Option.bind_eq_some_iff.1 h
  obtain ⟨version, -, h⟩ := Option.bind_eq_some_iff.1 h
  obtain ⟨policyVersion, -, h⟩ := Option.bind_eq_some_iff.1 h
  obtain ⟨m, hm, h⟩ := Option.bind_eq_some_iff.1 h
  obtain rfl := Option.some.inj h
  refine ⟨value, hvalue, fun hnone => ?_, fun vendors hsome => ?_⟩
  · rw [hnone] at hm
    exact (Option.some.inj hm).symm
  · rw [hsome] at hm
    cases vendors with
    | object fields => exact ⟨fields, rfl, find?_of_vendors? hm⟩
    | _ => cases hm

/-- A list that is read, and one that is made of declarations, has every entry under its own id, so
that whatever is looked up stands under the id that was looked up; of several entries, or
declarations, of one vendor the last stays. Any list is read back from its text when every entry
stands under its own id, and otherwise rejected for the smallest key that is not its entry's id. -/
theorem keepsIds :
    (∀ text l, ofText text = .ok l →
      l.ResolvesIds ∧ ∃ document, Json.read? text = some document ∧ l.HoldsLast document) ∧
    (∀ version declarations,
      (ofDeclarations version declarations).ResolvesIds ∧
      ∀ v, (ofDeclarations version declarations).source v =
        declarations.reverse.find? fun d => d.id = v) ∧
    ∀ l : VendorList,
      ((∀ entry ∈ l.vendors.entries, entry.1 = entry.2.id) → ofText l.toText = .ok l) ∧
      (¬ (∀ entry ∈ l.vendors.entries, entry.1 = entry.2.id) →
        ∃ key d, (key, d) ∈ l.vendors.entries ∧ key ≠ d.id ∧
          (∀ entry ∈ l.vendors.entries, entry.1 ≠ entry.2.id → key ≤ entry.1) ∧
          ofText l.toText = .error (.mismatched key d.id) ∧
          (Fault.vendorList (.mismatched key d.id)).message =
            "Vendor list error: " ++ ("Vendor entry '" ++ toString key.toNat ++
              "' declares mismatched id " ++ toString d.id.toNat)) := by
  refine ⟨fun text l h => ?_, fun version declarations => ?_, fun l => ⟨fun h => ?_, fun h => ?_⟩⟩
  · obtain ⟨hdocument, hconsistent⟩ := ofText_eq_ok_iff.1 h
    obtain ⟨document, hread, hlist⟩ := Option.bind_eq_some_iff.1 hdocument
    exact ⟨hconsistent.resolvesIds, document, hread, holdsLast_of_ofJson? hlist⟩
  · exact ⟨(Consistent.ofDeclarations version declarations).resolvesIds,
      find?_ofDeclarations version declarations⟩
  · rw [ofText_toText, consistent_iff_mismatch?.1 h]
    rfl
  · obtain ⟨⟨key, d⟩, hmismatch⟩ :=
      Option.ne_none_iff_exists'.1 (mt consistent_iff_mismatch?.2 h)
    obtain ⟨hentry, hother, hsmallest⟩ := smallest_of_mismatch? hmismatch
    refine ⟨key, d, hentry, hother, hsmallest, ?_, rfl⟩
    rw [ofText_toText, hmismatch]
    rfl

/-- A text in which vendor 7 stands under another id first and under its own id last. -/
def repeatedText : String := "[1, 0, \x7b\"7\": [8], \"10\": [10], \"7\": [7, [2]]\x7d]"

/-- The list that the text writes. -/
def repeatedList : VendorList where
  version := 1
  vendors := .ofList [(7, { id := 7, purposes := .ofList [2] }), (10, { id := 10 })]

/-- A list in which two entries stand under other ids. -/
def misplaced : VendorList where
  version := 3
  vendors := .ofList [(10, { id := 2 }), (9, { id := 1 }), (8, { id := 8 })]

/-- The last entry of vendor 7 stays, as the last declaration does; of keys 9 and 10, the smaller
number is reported although its digits come later. -/
theorem keepsIds_repeated :
    (ofText repeatedText = .ok repeatedList ∧
      ∀ v, (repeatedList.source.resolve (some v)).id = v) ∧
    (ofDeclarations 2 [{ id := 7 }, { id := 7, purposes := .ofList [2] }]).source 7 =
      some { id := 7, purposes := .ofList [2] } ∧
    ofText misplaced.toText = .error (.mismatched 9 1) := by
  have htext : ofText repeatedText = .ok repeatedList := by
    have hread : (Json.read? repeatedText).bind ofJson? = some repeatedList := by decide +kernel
    rw [ofText_of_ofJson? hread]
    rfl
  refine ⟨⟨htext, (keepsIds.1 _ _ htext).1.id⟩, ?_, ?_⟩
  · rw [(keepsIds.2.1 2 _).2 7]
    rfl
  · have hmisplaced : ¬ ∀ entry ∈ misplaced.vendors.entries, entry.1 = entry.2.id := by decide
    obtain ⟨key, d, hentry, hother, hsmallest, herror, -⟩ := (keepsIds.2.2 misplaced).2 hmisplaced
    have hkey : key ≤ 9 := hsmallest (9, { id := 1 }) (by decide) (by decide)
    have hentries : misplaced.vendors.entries =
        [(8, { id := 8 }), (9, { id := 1 }), (10, { id := 2 })] := by decide
    rw [hentries] at hentry
    simp only [List.mem_cons, Prod.mk.injEq, List.not_mem_nil, or_false] at hentry
    -- vendor 8 stands under its own id, and 10 is not the smallest
    rcases hentry with ⟨rfl, rfl⟩ | ⟨rfl, rfl⟩ | ⟨rfl, rfl⟩
    · exact absurd rfl hother
    · exact herror
    · exact absurd hkey (by decide)

end VendorList

end ConsentGate
