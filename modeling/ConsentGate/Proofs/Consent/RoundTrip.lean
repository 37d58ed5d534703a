import ConsentGate.Consent.Json
import ConsentGate.Proofs.Json.RoundTrip
import ConsentGate.Proofs.Reading

/-!
# Reading a written consent

A consent is written with all its fields, and reads back as it was unless a publisher restriction is
about a purpose that does not exist; then the first such restriction is the fault. No consent that
is read, and none that is built from the empty one, holds such a restriction.

Results:

* `Consent.ofText_toText`: what the text of a consent reads as.
* `Consent.unknownPurpose?_eq_none_iff`, `Consent.exists_of_unknownPurpose?`: which restriction is
  the fault.
* `Consent.readsBack`: what reads back, and why it fails otherwise.
-/

namespace ConsentGate

/-! ## Documents -/

namespace PublisherRestriction

theorem ofJson?_toJson (entry : PublisherRestriction) : ofJson? entry.toJson = some entry := by
  obtain ⟨value, hfields, hvalue⟩ : ∃ value, entry.toJson.fields? fieldNames = some value ∧ _ :=
    Json.fields?_record rfl (by decide)
  simp only [List.forall_mem_cons] at hvalue
  obtain ⟨hpurpose, htype, hvendors, -⟩ := hvalue
  simp only [ofJson?, hfields, hpurpose, htype, hvendors, Option.bind_eq_bind, Option.bind_some,
    Option.pure_def, Option.elim_some, Json.required, Json.optional, Json.byte?_ofByte,
    Json.variant?_ofString, RestrictionType.ofKey?_key, Json.set?_ofSet Json.word?_ofWord]

theorem wellFormed_toJson (entry : PublisherRestriction) : entry.toJson.WellFormed := by
  refine Json.wellFormed_record fun field hfield => ?_
  simp only [List.mem_cons, List.not_mem_nil, or_false] at hfield
  rcases hfield with rfl | rfl | rfl
  · exact Json.wellFormed_ofNat _
  · exact Json.wellFormed_ofString _
  · exact Json.wellFormed_map (fun _ => Json.wellFormed_ofNat _) _

end PublisherRestriction

namespace Consent

theorem ofJson?_toJson (c : Consent) : ofJson? c.toJson = some c := by
  obtain ⟨value, hfields, hvalue⟩ : ∃ value, c.toJson.fields? fieldNames = some value ∧ _ :=
    Json.fields?_record rfl (by decide)
  simp only [List.forall_mem_cons] at hvalue
  obtain ⟨hpurposes, hinterests, hvendors, hvendorInterests, hfeatures, htreatment, hrestrictions,
    -⟩ := hvalue
  simp only [ofJson?, hfields, hpurposes, hinterests, hvendors, hvendorInterests, hfeatures,
    htreatment, hrestrictions, Option.bind_eq_bind, Option.bind_some, Option.pure_def,
    Option.elim_some, Json.optional, Json.bool?, Json.set?_ofSet Json.byte?_ofByte,
    Json.set?_ofSet Json.word?_ofWord, Json.list?_map PublisherRestriction.ofJson?_toJson]

theorem wellFormed_toJson (c : Consent) : c.toJson.WellFormed := by
  have hbytes (s : OrderedSet UInt8) : (Json.ofSet .ofByte s).WellFormed :=
    Json.wellFormed_map (fun _ => Json.wellFormed_ofNat _) _
  have hwords (s : OrderedSet UInt32) : (Json.ofSet .ofWord s).WellFormed :=
    Json.wellFormed_map (fun _ => Json.wellFormed_ofNat _) _
  refine Json.wellFormed_record fun field hfield => ?_
  simp only [List.mem_cons, List.not_mem_nil, or_false] at hfield
  rcases hfield with rfl | rfl | rfl | rfl | rfl | rfl | rfl
  · exact hbytes _
  · exact hbytes _
  · exact hwords _
  · exact hwords _
  · exact hbytes _
  · trivial
  · exact Json.wellFormed_map PublisherRestriction.wellFormed_toJson _

/-- A text whose document is a consent is read as that consent, unless a restriction of it is on a
purpose that does not exist. -/
theorem ofText_of_ofJson? {text : String} {c : Consent}
    (h : (Json.read? text).bind ofJson? = some c) :
    ofText text = c.unknownPurpose?.elim (.ok c) fun id => .error (.unknownPurpose id) := by
  simp only [ofText, h]
  cases c.unknownPurpose? <;> rfl

/-- What the text of a consent reads as. -/
theorem ofText_toText (c : Consent) :
    ofText c.toText = c.unknownPurpose?.elim (.ok c) fun id => .error (.unknownPurpose id) := by
  apply ofText_of_ofJson?
  rw [toText, Json.read?_render Json.Layout.spaced_compact c.wellFormed_toJson, Option.bind_some,
    ofJson?_toJson]

end Consent

/-! ## Restrictions on purposes that do not exist -/

/-- The id in a restriction is that of a purpose. -/
def PublisherRestriction.NamesPurpose (entry : PublisherRestriction) : Prop :=
  1 ≤ entry.purposeId ∧ entry.purposeId ≤ 10

instance (entry : PublisherRestriction) : Decidable entry.NamesPurpose :=
  inferInstanceAs (Decidable (_ ∧ _))

theorem PublisherRestriction.isNone_ofId?_iff {entry : PublisherRestriction} :
    (Purpose.ofId? entry.purposeId).isNone ↔ ¬ entry.NamesPurpose := by
  rw [NamesPurpose, ← Purpose.isSome_ofId?_iff]
  cases Purpose.ofId? entry.purposeId <;> simp

namespace Consent

theorem unknownPurpose?_eq_none_iff {c : Consent} :
    c.unknownPurpose? = none ↔ ∀ entry ∈ c.publisherRestrictions, entry.NamesPurpose := by
  simp only [unknownPurpose?, List.find?_eq_none, List.forall_mem_map,
    PublisherRestriction.isNone_ofId?_iff, Decidable.not_not]

/-- The fault is the first restriction on a purpose that does not exist. -/
theorem exists_of_unknownPurpose? {c : Consent} {id : PurposeId} (h : c.unknownPurpose? = some id) :
    ∃ before entry after, c.publisherRestrictions = before ++ entry :: after ∧
      (∀ earlier ∈ before, earlier.NamesPurpose) ∧ ¬ entry.NamesPurpose ∧
      entry.purposeId = id := by
  rw [unknownPurpose?, List.find?_map] at h
  obtain ⟨entry, hentry, hid⟩ := Option.map_eq_some_iff.1 h
  obtain ⟨hbad, before, after, hsplit, hbefore⟩ := List.find?_eq_some_iff_append.1 hentry
  refine ⟨before, entry, after, hsplit, fun earlier hearlier => ?_,
    PublisherRestriction.isNone_ofId?_iff.1 hbad, hid⟩
  refine Decidable.byContradiction fun hnames => ?_
  simpa [PublisherRestriction.isNone_ofId?_iff.2 hnames] using hbefore earlier hearlier

/-- A consent that is read is what its document writes, and all its restrictions are on purposes
that exist. -/
theorem ofText_eq_ok_iff {text : String} {c : Consent} :
    ofText text = .ok c ↔ (Json.read? text).bind ofJson? = some c ∧ c.unknownPurpose? = none :=
  accepted_iff (fun hnone => ⟨.malformed, by rw [ofText, hnone]⟩) fun _ => ofText_of_ofJson?

/-- No consent that is read has a restriction on a purpose that does not exist. -/
theorem unknownPurpose?_of_ofText {text : String} {c : Consent} (h : ofText text = .ok c) :
    c.unknownPurpose? = none := (ofText_eq_ok_iff.1 h).2

/-- The consents that are built from the empty one. -/
inductive Built : Consent → Prop
  | empty : Built {}
  | purposeConsents {c : Consent} (h : Built c) (ids : List PurposeId) :
    Built (c.withPurposeConsents ids)
  | purposeInterests {c : Consent} (h : Built c) (ids : List PurposeId) :
    Built (c.withPurposeInterests ids)
  | vendorConsents {c : Consent} (h : Built c) (ids : List VendorId) :
    Built (c.withVendorConsents ids)
  | vendorInterests {c : Consent} (h : Built c) (ids : List VendorId) :
    Built (c.withVendorInterests ids)
  | featureOptIns {c : Consent} (h : Built c) (ids : List FeatureId) :
    Built (c.withFeatureOptIns ids)
  | publisherRestriction {c : Consent} (h : Built c) (p : Purpose) (type : RestrictionType)
    (vendorIds : List VendorId) : Built (c.withPublisherRestriction p type vendorIds)

/-- Restrictions are added for purposes only. -/
theorem Built.namesPurpose {c : Consent} (h : Built c) :
    ∀ entry ∈ c.publisherRestrictions, entry.NamesPurpose := by
  induction h with
  | empty => exact nofun
  | purposeConsents _ _ ih | purposeInterests _ _ ih | vendorConsents _ _ ih
  | vendorInterests _ _ ih | featureOptIns _ _ ih => exact ih
  | publisherRestriction _ p type vendorIds ih =>
    intro entry hentry
    rcases List.mem_append.1 hentry with hentry | hentry
    · exact ih entry hentry
    · rw [List.mem_singleton.1 hentry]
      exact Purpose.isSome_ofId?_iff.1 (Purpose.ofId?_eq_some_iff.2 rfl ▸ rfl)

/-- A consent reads back exactly when its restrictions are on purposes that exist, and otherwise the
first other one is the fault; all consents that are read or built read back. -/
theorem readsBack :
    (∀ c : Consent,
      if ∀ entry ∈ c.publisherRestrictions, entry.NamesPurpose then ofText c.toText = .ok c
      else ∃ before entry after fault, c.publisherRestrictions = before ++ entry :: after ∧
        (∀ earlier ∈ before, earlier.NamesPurpose) ∧ ¬ entry.NamesPurpose ∧
        ofText c.toText = .error fault ∧
        (Fault.consent fault).message =
          "Consent error: Publisher restriction references an unknown purpose" ∧
        (Fault.consent fault).causes = [.unknownPurpose entry.purposeId]) ∧
    (∀ text c, ofText text = .ok c →
      (∀ entry ∈ c.publisherRestrictions, entry.NamesPurpose) ∧ ofText c.toText = .ok c) ∧
    (∀ c, Built c →
      (∀ entry ∈ c.publisherRestrictions, entry.NamesPurpose) ∧ ofText c.toText = .ok c) := by
  have hback {c : Consent} (h : ∀ entry ∈ c.publisherRestrictions, entry.NamesPurpose) :
      ofText c.toText = .ok c := by
    rw [ofText_toText, unknownPurpose?_eq_none_iff.2 h]
    rfl
  refine ⟨fun c => ?_, fun text c h => ?_, fun c h => ⟨h.namesPurpose, hback h.namesPurpose⟩⟩
  · split
    · rename_i h
      exact hback h
    · rename_i h
      rw [← unknownPurpose?_eq_none_iff] at h
      obtain ⟨id, hid⟩ := Option.ne_none_iff_exists'.1 h
      obtain ⟨before, entry, after, hsplit, hbefore, hentry, rfl⟩ := exists_of_unknownPurpose? hid
      refine ⟨before, entry, after, .unknownPurpose entry.purposeId, hsplit, hbefore, hentry, ?_,
        rfl, rfl⟩
      rw [ofText_toText, hid]
      rfl
  · have hnames := unknownPurpose?_eq_none_iff.1 (unknownPurpose?_of_ofText h)
    exact ⟨hnames, hback hnames⟩

/-- A text of records in array form with a repeated id and an escape, a consent that is built, and
one whose second restriction is the fault. -/
theorem readsBack_restricted :
    (ofText "[[7, 1, 7], [], [], [], [], false, [[10, \"not\\u005fallowed\"]]]" =
        .ok { purposeConsents := .ofList [1, 7],
              publisherRestrictions := [⟨10, .notAllowed, ∅⟩] } ∧
      ofText (toText { purposeConsents := .ofList [1, 7],
                       publisherRestrictions := [⟨10, .notAllowed, ∅⟩] }) =
        .ok { purposeConsents := .ofList [1, 7],
              publisherRestrictions := [⟨10, .notAllowed, ∅⟩] }) ∧
    (Built (withPublisherRestriction {} .two .requireConsent [4294967295, 0]) ∧
      ofText (withPublisherRestriction {} .two .requireConsent [4294967295, 0]).toText =
        .ok (withPublisherRestriction {} .two .requireConsent [4294967295, 0])) ∧
    ∃ fault,
      ofText (toText { publisherRestrictions :=
        [⟨10, .notAllowed, ∅⟩, ⟨0, .requireConsent, ∅⟩, ⟨11, .notAllowed, ∅⟩] }) = .error fault ∧
      (Fault.consent fault).causes = [.unknownPurpose 0] := by
  have htext : ofText "[[7, 1, 7], [], [], [], [], false, [[10, \"not\\u005fallowed\"]]]" =
      .ok { purposeConsents := .ofList [1, 7],
            publisherRestrictions := [⟨10, .notAllowed, ∅⟩] } := by
    have hread :
        (Json.read? "[[7, 1, 7], [], [], [], [], false, [[10, \"not\\u005fallowed\"]]]").bind
          ofJson? = some { purposeConsents := .ofList [1, 7],
                           publisherRestrictions := [⟨10, .notAllowed, ∅⟩] } := by
      decide +kernel
    simp only [ofText, hread]
    rfl
  have hbuilt : Built (withPublisherRestriction {} .two .requireConsent [4294967295, 0]) :=
    .publisherRestriction .empty _ _ _
  refine ⟨⟨htext, (readsBack.2.1 _ _ htext).2⟩, ⟨hbuilt, (readsBack.2.2 _ hbuilt).2⟩, ?_⟩
  have hfault := readsBack.1 { publisherRestrictions :=
    [⟨10, .notAllowed, ∅⟩, ⟨0, .requireConsent, ∅⟩, ⟨11, .notAllowed, ∅⟩] }
  rw [if_neg (by decide)] at hfault
  obtain ⟨before, entry, after, fault, hsplit, hbefore, hentry, herror, -, hcauses⟩ := hfault
  refine ⟨fault, herror, ?_⟩
  -- the first restriction is fine and the second is not, so the split is there
  rcases before with _ | ⟨first, _ | ⟨second, later⟩⟩
  · obtain ⟨rfl, -⟩ := List.cons.inj hsplit
    exact absurd (by decide) hentry
  · obtain ⟨rfl, -⟩ := List.cons.inj (List.cons.inj hsplit).2
    exact hcauses
  · obtain ⟨rfl, -⟩ := List.cons.inj (List.cons.inj hsplit).2
    exact absurd (hbefore _ (List.mem_cons_of_mem _ List.mem_cons_self)) (by decide)

end Consent

end ConsentGate
