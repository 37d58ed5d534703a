import ConsentGate.Proofs.Consent.RoundTrip
import ConsentGate.Proofs.Json.Edits
import ConsentGate.Proofs.VendorList.RoundTrip
import Mathlib.Data.List.Nodup

/-!
# Editing consents and vendor lists

The texts of consents and vendor lists come from elsewhere, with their fields in any order and with
more fields than are read here. A text may be edited in such ways, and the sets of ids in it written
in another way, without being read as anything else. Of the entries of a vendor list this holds only
where no name stands twice, because of two entries under one id the later counts.

Results:

* `Consent.keeps_edits`, `VendorList.keeps_edits`: one edit of a document does not change what is
  read from it.
* `edits_readAlike`: any number of edits do not change what a text is read as.
-/

namespace ConsentGate

open Json (Keeps KeepsWellFormed Rearranges EditsItem Reshapes Under keeps_rearranges
  keeps_under_of_not_mem)

/-! ## Consents -/

namespace PublisherRestriction

/-- An edit of a publisher restriction. -/
def Edits : Json → Json → Prop := Reshapes fieldNames (Under ["vendor_ids"] Rearranges)

theorem keeps_edits : Keeps Edits ofJson? := by
  refine Json.keeps_reshapes fun find find' hfound => ?_
  simp only [fieldNames, List.forall_mem_cons] at hfound
  obtain ⟨hpurpose, htype, hvendors, -⟩ := hfound
  refine bind_eq_some_of_imp (hpurpose.required (keeps_under_of_not_mem (by decide))) fun _ => ?_
  refine bind_eq_some_of_imp (htype.required (keeps_under_of_not_mem (by decide))) fun _ => ?_
  refine bind_eq_some_of_imp (hvendors.optional ((keeps_rearranges _).under _ _)) fun _ => ?_
  exact fun _ h => h

theorem keepsWellFormed_edits : KeepsWellFormed Edits :=
  Json.keepsWellFormed_reshapes fun name => Json.keepsWellFormed_rearranges.under _ name

end PublisherRestriction

namespace Consent

/-- The fields of a consent that are sets of ids. -/
def idFields : List String :=
  ["purpose_consents", "purpose_legitimate_interests", "vendor_consents",
    "vendor_legitimate_interests", "special_feature_opt_ins"]

/-- An edit of a field of a consent. -/
def EditsField (name : String) (value value' : Json) : Prop :=
  Under idFields Rearranges name value value' ∨
    Under ["publisher_restrictions"] (EditsItem PublisherRestriction.Edits) name value value'

/-- An edit of a consent. -/
def Edits : Json → Json → Prop := Reshapes fieldNames EditsField

theorem keeps_edits : Keeps Edits ofJson? := by
  have hset {name : String} (hname : name ∉ ["publisher_restrictions"]) {α : Type} [LT α]
      [DecidableLT α] [Ascends α] (read? : Json → Option α) :
      Keeps (EditsField name) (Json.set? read?) :=
    ((keeps_rearranges read?).under _ _).or (keeps_under_of_not_mem hname)
  have htreatment : Keeps (EditsField "purpose_one_treatment") Json.bool? :=
    (keeps_under_of_not_mem (by decide)).or (keeps_under_of_not_mem (by decide))
  have hrestrictions : Keeps (EditsField "publisher_restrictions")
      (Json.list? PublisherRestriction.ofJson?) :=
    (keeps_under_of_not_mem (by decide)).or
      ((Json.keeps_editsItem PublisherRestriction.keeps_edits).under _ _)
  refine Json.keeps_reshapes fun find find' hfound => ?_
  simp only [fieldNames, List.forall_mem_cons] at hfound
  obtain ⟨h, h', hvendors, hvendors', hfeatures, hone, hlist, -⟩ := hfound
  refine bind_eq_some_of_imp (h.optional (hset (by decide) _)) fun _ => ?_
  refine bind_eq_some_of_imp (h'.optional (hset (by decide) _)) fun _ => ?_
  refine bind_eq_some_of_imp (hvendors.optional (hset (by decide) _)) fun _ => ?_
  refine bind_eq_some_of_imp (hvendors'.optional (hset (by decide) _)) fun _ => ?_
  refine bind_eq_some_of_imp (hfeatures.optional (hset (by decide) _)) fun _ => ?_
  refine bind_eq_some_of_imp (hone.optional htreatment) fun _ => ?_
  refine bind_eq_some_of_imp (hlist.optional hrestrictions) fun _ => ?_
  exact fun _ h => h

theorem keepsWellFormed_edits : KeepsWellFormed Edits :=
  Json.keepsWellFormed_reshapes fun name =>
    (Json.keepsWellFormed_rearranges.under _ name).or
      ((Json.keepsWellFormed_editsItem PublisherRestriction.keepsWellFormed_edits).under _ name)

end Consent

/-! ## Vendor lists -/

namespace Declaration

/-- The fields of a declaration that are sets of ids. -/
def idFields : List String := ["purposes", "legIntPurposes", "flexiblePurposes", "specialFeatures"]

/-- An edit of a declaration. -/
def Edits : Json → Json → Prop := Reshapes fieldNames (Under idFields Rearranges)

theorem keeps_edits : Keeps Edits ofJson? := by
  refine Json.keeps_reshapes fun find find' hfound => ?_
  simp only [fieldNames, List.forall_mem_cons] at hfound
  obtain ⟨hid, hpurposes, hinterests, hflexible, hfeatures, -⟩ := hfound
  refine bind_eq_some_of_imp (hid.required (keeps_under_of_not_mem (by decide))) fun _ => ?_
  refine bind_eq_some_of_imp (hpurposes.optional ((keeps_rearranges _).under _ _)) fun _ => ?_
  refine bind_eq_some_of_imp (hinterests.optional ((keeps_rearranges _).under _ _)) fun _ => ?_
  refine bind_eq_some_of_imp (hflexible.optional ((keeps_rearranges _).under _ _)) fun _ => ?_
  refine bind_eq_some_of_imp (hfeatures.optional ((keeps_rearranges _).under _ _)) fun _ => ?_
  exact fun _ h => h

theorem keepsWellFormed_edits : KeepsWellFormed Edits :=
  Json.keepsWellFormed_reshapes fun name => Json.keepsWellFormed_rearranges.under _ name

end Declaration

namespace VendorList

/-- An edit of the entries of a vendor list. -/
inductive EditsVendors : Json → Json → Prop
  /-- Entries with distinct names are put in another order. -/
  | reorder {fields fields' : List (Quoted × Json)} (distinct : (fields.map Prod.fst).Nodup)
    (perm : fields.Perm fields') : EditsVendors (.object fields) (.object fields')
  /-- The declaration of an entry is edited. -/
  | entry {before after : List (Quoted × Json)} {name : Quoted} {value value' : Json}
    (h : Declaration.Edits value value') :
    EditsVendors (.object (before ++ (name, value) :: after))
      (.object (before ++ (name, value') :: after))

/-- An edit of a vendor list. -/
def Edits : Json → Json → Prop := Reshapes fieldNames (Under ["vendors"] EditsVendors)

theorem vendorKey?_biUnique : Relator.BiUnique fun name v => vendorKey? name = some v :=
  ⟨fun _ _ _ h h' => (vendorKey?_eq_some_iff.1 h).trans (vendorKey?_eq_some_iff.1 h').symm,
    fun _ _ _ h h' => Option.some.inj (h.symm.trans h')⟩

/-- Entries with distinct names have distinct keys. -/
theorem nodup_iff_of_writes {fields : List (Quoted × Json)}
    {entries : List (VendorId × Declaration)} (h : List.Forall₂ Writes fields entries) :
    (fields.map Prod.fst).Nodup ↔ (entries.map Prod.fst).Nodup := by
  apply List.rel_nodup vendorKey?_biUnique
  rw [List.forall₂_map_left_iff, List.forall₂_map_right_iff]
  exact h.imp fun _ _ hwrites => hwrites.1

theorem keeps_editsVendors : Keeps EditsVendors vendors? := by
  intro document document' hedit m h
  cases hedit with
  | reorder distinct perm =>
    obtain ⟨entries, hentries, rfl⟩ := Option.map_eq_some_iff.1 h
    obtain ⟨entries', hentries', hperm⟩ := exists_mapM_of_perm perm hentries
    have hkeys := (nodup_iff_of_writes (writes_of_mapM hentries)).1 distinct
    refine Option.map_eq_some_iff.2 ⟨entries', hentries', OrderedMap.ext fun v => ?_⟩
    rw [OrderedMap.find?_ofList_of_nodup hkeys,
      OrderedMap.find?_ofList_of_nodup ((hperm.map Prod.fst).nodup_iff.2 hkeys),
      lookup_eq_of_perm hperm.symm hkeys]
  | entry hdeclaration =>
    obtain ⟨entries, hentries, rfl⟩ := Option.map_eq_some_iff.1 h
    refine Option.map_eq_some_iff.2 ⟨entries, mapM_replace (fun entry hentry => ?_) hentries, rfl⟩
    refine bind_eq_some_of_imp (fun _ h => h) (fun key => ?_) entry hentry
    exact bind_eq_some_of_imp (fun d hd => Declaration.keeps_edits hdeclaration hd) fun _ _ h => h

theorem keepsWellFormed_editsVendors : KeepsWellFormed EditsVendors := by
  intro document document' hedit h
  cases hedit with
  | reorder _ perm => exact Json.wellFormed_of_perm perm h
  | entry hdeclaration =>
    exact Json.wellFormed_of_field
      (fun hvalue => Declaration.keepsWellFormed_edits hdeclaration hvalue) h

theorem keeps_edits : Keeps Edits ofJson? := by
  refine Json.keeps_reshapes fun find find' hfound => ?_
  simp only [fieldNames, List.forall_mem_cons] at hfound
  obtain ⟨hversion, hpolicy, hvendors, -⟩ := hfound
  refine bind_eq_some_of_imp (hversion.required (keeps_under_of_not_mem (by decide))) fun _ => ?_
  refine bind_eq_some_of_imp (hpolicy.optional (keeps_under_of_not_mem (by decide))) fun _ => ?_
  refine bind_eq_some_of_imp (hvendors.optional (keeps_editsVendors.under _ _)) fun _ => ?_
  exact fun _ h => h

theorem keepsWellFormed_edits : KeepsWellFormed Edits :=
  Json.keepsWellFormed_reshapes fun name => keepsWellFormed_editsVendors.under _ name

end VendorList

/-! ## Texts -/

/-- Whatever a text is read as, its document may be edited: there are texts of the edited document,
and they are all read as the same. -/
def Disregards {ε α : Type} (ofText : String → Except ε α) (edits : Json → Json → Prop) : Prop :=
  ∀ text a, ofText text = .ok a →
    (∃ document : Json, document.IsSpelled text) ∧
    ∀ document document' : Json, document.IsSpelled text →
      Relation.ReflTransGen edits document document' →
        (∃ text', document'.IsSpelled text') ∧
        ∀ text', document'.IsSpelled text' → ofText text' = .ok a

/-- A reader of documents that keeps what it reads makes a reader of texts that disregards edits,
also if it accepts only some of what it reads. -/
theorem disregards_of_keeps {ε α : Type} {ofText : String → Except ε α} {ofJson? : Json → Option α}
    {accepted : α → Prop}
    (hread : ∀ {text a}, ofText text = .ok a ↔ (Json.read? text).bind ofJson? = some a ∧ accepted a)
    {edits : Json → Json → Prop} (hkeeps : Keeps edits ofJson?)
    (hwellFormed : KeepsWellFormed edits) : Disregards ofText edits := by
  intro text a htext
  obtain ⟨hread?, haccepted⟩ := hread.1 htext
  obtain ⟨document, hdocument, ha⟩ := Option.bind_eq_some_iff.1 hread?
  refine ⟨⟨document, Json.read?_eq_some_iff.1 hdocument⟩, fun d document' hd hedits => ⟨?_, ?_⟩⟩
  · exact Json.exists_isSpelled_iff.2
      (hwellFormed.reflTransGen hedits (Json.exists_isSpelled_iff.1 ⟨text, hd⟩))
  · intro text' htext'
    -- a text spells one document only
    obtain rfl : document = d :=
      Option.some.inj (hdocument.symm.trans (Json.read?_eq_some_iff.2 hd))
    rw [hread, Json.read?_eq_some_iff.2 htext']
    exact ⟨hkeeps.reflTransGen hedits ha, haccepted⟩

/-- A text of a consent or a vendor list goes on to be read as the same when, any number of times,
the fields of its objects are put in another order, fields with other names are inserted, sets of
ids are rearranged, and the entries of a vendor list are put in another order, and when white space
between its lexemes is changed. -/
theorem edits_readAlike :
    Disregards Consent.ofText Consent.Edits ∧ Disregards VendorList.ofText VendorList.Edits :=
  ⟨disregards_of_keeps Consent.ofText_eq_ok_iff Consent.keeps_edits Consent.keepsWellFormed_edits,
    disregards_of_keeps VendorList.ofText_eq_ok_iff VendorList.keeps_edits
      VendorList.keepsWellFormed_edits⟩

/-- A consent with its fields in another order, a repeated id and one more field, and a vendor list
with its entries in another order and one more field in one of them. -/
theorem edits_readAlike_extended :
    (Consent.ofText "\x7b\"vendor_consents\":[7,8],\"purpose_consents\":[1]\x7d" =
        .ok { purposeConsents := .ofList [1], vendorConsents := .ofList [7, 8] } ∧
      Consent.ofText ("\x7b\"cmp\":\x7b\"purpose_consents\":[9]\x7d,\n" ++
          "\"purpose_consents\": [1], \"vendor_consents\": [8, 7, 8]\x7d") =
        .ok { purposeConsents := .ofList [1], vendorConsents := .ofList [7, 8] }) ∧
    VendorList.ofText ("\x7b\"vendorListVersion\":3," ++
          "\"vendors\":\x7b\"10\":\x7b\"id\":10\x7d,\"2\":\x7b\"id\":2\x7d\x7d\x7d") =
        .ok (.ofDeclarations 3 [{ id := 2 }, { id := 10 }]) ∧
      VendorList.ofText ("\x7b\"vendorListVersion\":3," ++
          "\"vendors\":\x7b\"2\":\x7b\"id\":2\x7d,\"10\":\x7b\"name\":[],\"id\":10\x7d\x7d\x7d") =
        .ok (.ofDeclarations 3 [{ id := 2 }, { id := 10 }]) := by
  constructor
  · have htext : Consent.ofText "\x7b\"vendor_consents\":[7,8],\"purpose_consents\":[1]\x7d" =
        .ok { purposeConsents := .ofList [1], vendorConsents := .ofList [7, 8] } :=
      Consent.ofText_eq_ok_iff.2 (by decide +kernel)
    have hspelled : Json.IsSpelled
        (.record [("vendor_consents", .array [.ofNat 7, .ofNat 8]),
          ("purpose_consents", .array [.ofNat 1])])
        "\x7b\"vendor_consents\":[7,8],\"purpose_consents\":[1]\x7d" :=
      Json.read?_eq_some_iff.1 (by with_unfolding_all rfl)
    have hspelled' : Json.IsSpelled
        (.record [("cmp", .record [("purpose_consents", .array [.ofNat 9])]),
          ("purpose_consents", .array [.ofNat 1]),
          ("vendor_consents", .array [.ofNat 8, .ofNat 7, .ofNat 8])])
        ("\x7b\"cmp\":\x7b\"purpose_consents\":[9]\x7d,\n" ++
          "\"purpose_consents\": [1], \"vendor_consents\": [8, 7, 8]\x7d") :=
      Json.read?_eq_some_iff.1 (by with_unfolding_all rfl)
    have hrearranges : Consent.EditsField "vendor_consents" (.array [.ofNat 7, .ofNat 8])
        (.array [.ofNat 8, .ofNat 7, .ofNat 8]) := by
      refine .inl ⟨by decide, .items fun item => ?_⟩
      simp only [List.mem_cons, List.not_mem_nil]
      tauto
    have hrepeat : Consent.Edits
        (.record [("vendor_consents", .array [.ofNat 7, .ofNat 8]),
          ("purpose_consents", .array [.ofNat 1])])
        (.record [("vendor_consents", .array [.ofNat 8, .ofNat 7, .ofNat 8]),
          ("purpose_consents", .array [.ofNat 1])]) :=
      @Reshapes.field _ _ [] _ _ _ _ _ (Quoted.text?_ofText _) hrearranges
    have hinsert : Consent.Edits
        (.record [("purpose_consents", .array [.ofNat 1]),
          ("vendor_consents", .array [.ofNat 8, .ofNat 7, .ofNat 8])])
        (.record [("cmp", .record [("purpose_consents", .array [.ofNat 9])]),
          ("purpose_consents", .array [.ofNat 1]),
          ("vendor_consents", .array [.ofNat 8, .ofNat 7, .ofNat 8])]) :=
      @Reshapes.insert _ _ [] _ _ "cmp" _ (Quoted.text?_ofText _) (by decide)
        (Quoted.wellFormed_ofText _)
        (Json.wellFormed_record (List.forall_mem_singleton.2 ⟨Json.wellFormed_ofNat 9, trivial⟩))
    exact ⟨htext, ((edits_readAlike.1 _ _ htext).2 _ _ hspelled
      (.head hrepeat (.head (.reorder (.swap _ _ _)) (.single hinsert)))).2 _ hspelled'⟩
  · have htext : VendorList.ofText ("\x7b\"vendorListVersion\":3," ++
          "\"vendors\":\x7b\"10\":\x7b\"id\":10\x7d,\"2\":\x7b\"id\":2\x7d\x7d\x7d") =
        .ok (.ofDeclarations 3 [{ id := 2 }, { id := 10 }]) :=
      VendorList.ofText_eq_ok_iff.2
        ⟨by decide +kernel, VendorList.consistent_iff_mismatch?.2 (by decide +kernel)⟩
    have hspelled : Json.IsSpelled
        (.record [("vendorListVersion", .ofNat 3),
          ("vendors", .record [("10", .record [("id", .ofNat 10)]),
            ("2", .record [("id", .ofNat 2)])])])
        ("\x7b\"vendorListVersion\":3," ++
          "\"vendors\":\x7b\"10\":\x7b\"id\":10\x7d,\"2\":\x7b\"id\":2\x7d\x7d\x7d") :=
      Json.read?_eq_some_iff.1 (by with_unfolding_all rfl)
    have hspelled' : Json.IsSpelled
        (.record [("vendorListVersion", .ofNat 3),
          ("vendors", .record [("2", .record [("id", .ofNat 2)]),
            ("10", .record [("name", .array []), ("id", .ofNat 10)])])])
        ("\x7b\"vendorListVersion\":3," ++
          "\"vendors\":\x7b\"2\":\x7b\"id\":2\x7d,\"10\":\x7b\"name\":[],\"id\":10\x7d\x7d\x7d") :=
      Json.read?_eq_some_iff.1 (by with_unfolding_all rfl)
    have hvendors {vendors vendors' : Json} (h : VendorList.EditsVendors vendors vendors') :
        VendorList.Edits (.record [("vendorListVersion", .ofNat 3), ("vendors", vendors)])
          (.record [("vendorListVersion", .ofNat 3), ("vendors", vendors')]) :=
      @Reshapes.field _ _ [_] [] _ _ _ _ (Quoted.text?_ofText _) ⟨List.mem_singleton_self _, h⟩
    have hreorder : VendorList.EditsVendors
        (.record [("10", .record [("id", .ofNat 10)]), ("2", .record [("id", .ofNat 2)])])
        (.record [("2", .record [("id", .ofNat 2)]), ("10", .record [("id", .ofNat 10)])]) :=
      .reorder (by decide) (.swap _ _ _)
    have hinsert : Declaration.Edits (.record [("id", .ofNat 10)])
        (.record [("name", .array []), ("id", .ofNat 10)]) :=
      @Reshapes.insert _ _ [] _ _ "name" _ (Quoted.text?_ofText _) (by decide)
        (Quoted.wellFormed_ofText _) trivial
    have hentry : VendorList.EditsVendors
        (.record [("2", .record [("id", .ofNat 2)]), ("10", .record [("id", .ofNat 10)])])
        (.record [("2", .record [("id", .ofNat 2)]),
          ("10", .record [("name", .array []), ("id", .ofNat 10)])]) :=
      @VendorList.EditsVendors.entry [_] [] _ _ _ hinsert
    exact ⟨htext, ((edits_readAlike.2 _ _ htext).2 _ _ hspelled
      (.head (hvendors hreorder) (.single (hvendors hentry)))).2 _ hspelled'⟩

end ConsentGate
