import ConsentGate.Consent
import ConsentGate.Proofs.Verdict

/-!
# Monotonicity

A stricter policy restricts more, and so does weaker evidence: fewer bits in the signal, fewer
purposes in the declarations, or no signal at all. The comparison goes through the rule of
enforcement, parameter by parameter, and reaches the permissions only at the end, where a verdict
that clears fewer flags restricts more.

Results:

* `Strictness.Admits.mono`: a vendor that is admitted stays admitted on stronger evidence under a
  decision that is less strict.
* `Policy.Permits.mono`, `Policy.ClearsOnRequest.mono`: the same for the owners of the flags.
* `Policy.restrictsAtMost_of_atLeastAsStrict`: enforcement is monotone in the policy.
* `Policy.restrictsAtMost_of_below`: enforcement is monotone in the evidence.
-/

namespace ConsentGate

/-! ## Stricter policies -/

/-- The place of a strictness in the order of strictness: `full` before `basic` before `off`. -/
def Strictness.rank : Strictness → Nat
  | .off => 0
  | .basic => 1
  | .full => 2

/-- The place of a treatment rule in the order of what it opens. -/
def TreatmentRule.openness : TreatmentRule → Nat
  | .noAccess => 0
  | .ignore => 1
  | .access => 2

/-- The first policy for a purpose is nowhere less strict than the second. -/
structure PurposePolicy.AtLeastAsStrict (a b : PurposePolicy) : Prop where
  strictness : b.strictness.rank ≤ a.strictness.rank
  checksVendors : b.checksVendors = true → a.checksVendors = true
  exceptions : ∀ code ∈ a.exceptions, code ∈ b.exceptions

/-- The first policy for a special feature is nowhere less strict than the second. -/
structure FeaturePolicy.AtLeastAsStrict (a b : FeaturePolicy) : Prop where
  enforced : b.enforced = true → a.enforced = true
  exceptions : ∀ code ∈ a.exceptions, code ∈ b.exceptions

/-- The first policy is nowhere less strict than the second. -/
structure Policy.AtLeastAsStrict (a b : Policy) : Prop where
  enabled : b.enabled = true → a.enabled = true
  appliesByDefault : b.appliesByDefault = true → a.appliesByDefault = true
  purposes : ∀ p, (a.purposes.get p).AtLeastAsStrict (b.purposes.get p)
  location : a.location.AtLeastAsStrict b.location
  treatment : a.treatment.openness ≤ b.treatment.openness

theorem Strictness.rank_le_full (strictness : Strictness) : strictness.rank ≤ full.rank := by
  cases strictness <;> decide

theorem TreatmentRule.eq_access_of_le {rule : TreatmentRule}
    (h : TreatmentRule.access.openness ≤ rule.openness) : rule = .access := by
  cases rule with
  | access => rfl
  | noAccess => exact absurd h (by decide)
  | ignore => exact absurd h (by decide)

theorem TreatmentRule.eq_ignore_or_access_of_le {rule : TreatmentRule}
    (h : TreatmentRule.ignore.openness ≤ rule.openness) : rule = .ignore ∨ rule = .access := by
  cases rule with
  | noAccess => exact absurd h (by decide)
  | ignore => exact .inl rfl
  | access => exact .inr rfl

theorem Policy.AtLeastAsStrict.refl (policy : Policy) : policy.AtLeastAsStrict policy where
  enabled := id
  appliesByDefault := id
  purposes _ := ⟨Nat.le_refl _, id, fun _ => id⟩
  location := ⟨id, fun _ => id⟩
  treatment := Nat.le_refl _

/-- The defaults, with purpose 1 closed where it was not shown, are as strict as any policy. -/
theorem Policy.noAccess_atLeastAsStrict (policy : Policy) :
    { treatment := .noAccess : Policy }.AtLeastAsStrict policy where
  enabled _ := rfl
  appliesByDefault _ := rfl
  purposes p := by
    rw [PerPurpose.get_ofFn]
    exact ⟨Strictness.rank_le_full _, fun _ => rfl, fun code h => by simp at h⟩
  location := ⟨fun _ => rfl, fun code h => by simp at h⟩
  treatment := Nat.zero_le _

/-! ## Weaker evidence -/

/-- Every bit of the first signal is set in the second, and the two agree on what the publisher
has decided. -/
structure Signal.Below (c d : Signal) : Prop where
  purposeConsent : ∀ p, c.purposeConsent p = true → d.purposeConsent p = true
  purposeInterest : ∀ p, c.purposeInterest p = true → d.purposeInterest p = true
  vendorConsent : ∀ v, c.vendorConsent v = true → d.vendorConsent v = true
  vendorInterest : ∀ v, c.vendorInterest v = true → d.vendorInterest v = true
  featureOptIn : ∀ i, c.featureOptIn i = true → d.featureOptIn i = true
  purposeOneTreatment : c.purposeOneTreatment = d.purposeOneTreatment
  publisherRestriction : ∀ p v, c.publisherRestriction p v = d.publisherRestriction p v

/-- Every purpose that a vendor declares in the first source it declares in the second, on the same
ground and as flexibly. A vendor that is not listed declares nothing. -/
structure DeclarationSource.Below (g h : DeclarationSource) : Prop where
  purposes : ∀ v, ∀ id ∈ (g.resolve (some v)).purposes, id ∈ (h.resolve (some v)).purposes
  interestPurposes : ∀ v, ∀ id ∈ (g.resolve (some v)).interestPurposes,
    id ∈ (h.resolve (some v)).interestPurposes
  flexiblePurposes : ∀ v, ∀ id ∈ (g.resolve (some v)).flexiblePurposes,
    id ∈ (h.resolve (some v)).flexiblePurposes

theorem Signal.Below.refl (s : Signal) : s.Below s :=
  ⟨fun _ => id, fun _ => id, fun _ => id, fun _ => id, fun _ => id, rfl, fun _ _ => rfl⟩

theorem DeclarationSource.Below.refl (g : DeclarationSource) : g.Below g :=
  ⟨fun _ _ => id, fun _ _ => id, fun _ _ => id⟩

/-- A part that grows for every vendor keeps what is declared in it. -/
theorem DeclarationSource.Declares.mono {g h : DeclarationSource}
    {part : Declaration → OrderedSet PurposeId} (hnone : ∀ id, part (.none id) = ∅)
    (hpart : ∀ v, ∀ id ∈ part (g.resolve (some v)), id ∈ part (h.resolve (some v)))
    {vendor : Option VendorId} {p : Purpose} (hg : g.Declares part vendor p) :
    h.Declares part vendor p := by
  obtain ⟨v, d, rfl, hv, hp⟩ := hg
  rw [← mem_resolve_iff hnone]
  exact hpart v p.id ((mem_resolve_iff hnone).2 ⟨v, d, rfl, hv, hp⟩)

theorem Signal.ConsentOpen.mono {c d : Signal} {checks checks' : Bool} {p : Purpose}
    {vendor : Option VendorId} (hs : c.Below d) (hchecks : checks' = true → checks = true)
    (h : c.ConsentOpen p checks vendor) : d.ConsentOpen p checks' vendor := by
  obtain ⟨hp, hvendor⟩ := h
  refine ⟨hs.purposeConsent p hp, fun hc => ?_⟩
  obtain ⟨v, hv, hbit⟩ := hvendor (hchecks hc)
  exact ⟨v, hv, hs.vendorConsent v hbit⟩

theorem Signal.InterestOpen.mono {c d : Signal} {checks checks' : Bool} {p : Purpose}
    {vendor : Option VendorId} (hs : c.Below d) (hchecks : checks' = true → checks = true)
    (h : c.InterestOpen p checks vendor) : d.InterestOpen p checks' vendor := by
  obtain ⟨hbasis, hp, hvendor⟩ := h
  refine ⟨hbasis, hs.purposeInterest p hp, fun hc => ?_⟩
  obtain ⟨v, hv, hbit⟩ := hvendor (hchecks hc)
  exact ⟨v, hv, hs.vendorInterest v hbit⟩

theorem Signal.Below.bind_publisherRestriction {c d : Signal} (hs : c.Below d) (p : Purpose)
    (vendor : Option VendorId) :
    vendor.bind (c.publisherRestriction p) = vendor.bind (d.publisherRestriction p) := by
  rw [funext (hs.publisherRestriction p)]

/-! ## Decisions -/

namespace Strictness.Admits

variable {c d : Signal} {g h : DeclarationSource} {p : Purpose} {checks checks' : Bool}
  {vendor : Option VendorId}

/-- What full enforcement admits, basic enforcement admits: each of its cases rests on an open
ground. -/
theorem basic_of_full (hfull : Admits c g p checks vendor .full) :
    Admits c g p checks vendor .basic := by
  cases hfull with
  | fullConsent _ _ ground => exact .basicConsent ground
  | fullInterest _ _ ground => exact .basicInterest ground
  | requiredConsent _ _ ground => exact .basicConsent ground
  | requiredInterest _ _ ground => exact .basicInterest ground

/-- A decision that is less strict admits no fewer. -/
theorem of_rank_le {a b : Strictness} (hrank : b.rank ≤ a.rank)
    (ha : Admits c g p checks vendor a) : Admits c g p checks vendor b := by
  cases b with
  | off => exact .off
  | basic =>
    cases a with
    | off => exact absurd hrank (by decide)
    | basic => exact ha
    | full => exact ha.basic_of_full
  | full =>
    cases a with
    | off => exact absurd hrank (by decide)
    | basic => exact absurd hrank (by decide)
    | full => exact ha

/-- A vendor that is admitted stays admitted on stronger evidence, and where vendors are not
checked any more. -/
theorem of_below {a : Strictness} (hs : c.Below d) (hg : g.Below h)
    (hchecks : checks' = true → checks = true) (ha : Admits c g p checks vendor a) :
    Admits d h p checks' vendor a := by
  have hbind := hs.bind_publisherRestriction p vendor
  have hconsent : g.Declares Declaration.purposes vendor p →
      h.Declares Declaration.purposes vendor p := .mono (fun _ => rfl) hg.purposes
  have hinterest : g.Declares Declaration.interestPurposes vendor p →
      h.Declares Declaration.interestPurposes vendor p := .mono (fun _ => rfl) hg.interestPurposes
  have hflexible : g.Declares Declaration.flexiblePurposes vendor p →
      h.Declares Declaration.flexiblePurposes vendor p := .mono (fun _ => rfl) hg.flexiblePurposes
  cases ha with
  | off => exact .off
  | basicConsent ground => exact .basicConsent (ground.mono hs hchecks)
  | basicInterest ground => exact .basicInterest (ground.mono hs hchecks)
  | fullConsent free declared ground =>
    exact .fullConsent (hbind ▸ free) (hconsent declared) (ground.mono hs hchecks)
  | fullInterest free declared ground =>
    exact .fullInterest (hbind ▸ free) (hinterest declared) (ground.mono hs hchecks)
  | requiredConsent bound declared ground =>
    exact .requiredConsent (hbind ▸ bound)
      (declared.imp hconsent (And.imp hflexible hinterest)) (ground.mono hs hchecks)
  | requiredInterest bound declared ground =>
    exact .requiredInterest (hbind ▸ bound)
      (declared.imp hinterest (And.imp hflexible hconsent)) (ground.mono hs hchecks)

theorem mono {a b : Strictness} (hs : c.Below d) (hg : g.Below h)
    (hchecks : checks' = true → checks = true) (hrank : b.rank ≤ a.rank)
    (ha : Admits c g p checks vendor a) : Admits d h p checks' vendor b :=
  (ha.of_below hs hg hchecks).of_rank_le hrank

end Strictness.Admits

theorem Exempt.mono {exceptions exceptions' : OrderedSet String} {code : Option String}
    (h : ∀ c ∈ exceptions, c ∈ exceptions') (hexempt : Exempt exceptions code) :
    Exempt exceptions' code := by
  obtain ⟨c, hc, hmem⟩ := hexempt
  exact ⟨c, hc, h c hmem⟩

/-! ## Owners -/

section Owners

variable {A B : Policy} {c d : Signal} {g h : DeclarationSource} {code : Option String}
  {vendor : Option VendorId}

theorem FeaturePolicy.Permits.mono {a b : FeaturePolicy} (hstrict : a.AtLeastAsStrict b)
    (hs : c.Below d) (ha : a.Permits c code) : b.Permits d code := by
  rcases ha with henforced | hopt | hexempt
  · exact .inl (eq_false_of_imp hstrict.enforced henforced)
  · exact .inr (.inl (hs.featureOptIn _ hopt))
  · exact .inr (.inr (hexempt.mono hstrict.exceptions))

theorem Policy.PermitsPurpose.mono (hstrict : A.AtLeastAsStrict B) (hs : c.Below d)
    (hg : g.Below h) {p : Purpose} (hA : A.PermitsPurpose c g p code vendor) :
    B.PermitsPurpose d h p code vendor := by
  have hp := hstrict.purposes p
  have hopen := hstrict.treatment
  cases hA with
  | exempt listed => exact .exempt (listed.mono hp.exceptions)
  | unshown first treated rule =>
    rw [rule] at hopen
    exact .unshown first (hs.purposeOneTreatment ▸ treated) (TreatmentRule.eq_access_of_le hopen)
  | evaluated rule admitted =>
    have hadmitted := admitted.mono hs hg hp.checksVendors hp.strictness
    by_cases hrule : p = .one ∧ d.purposeOneTreatment = true
    · -- the first policy evaluates purpose 1, so the second evaluates it or opens it to everybody
      obtain ⟨first, treated⟩ := hrule
      rw [rule first (hs.purposeOneTreatment.trans treated)] at hopen
      obtain hignore | haccess := TreatmentRule.eq_ignore_or_access_of_le hopen
      · exact .evaluated (fun _ _ => hignore) hadmitted
      · exact .unshown first treated haccess
    · exact .evaluated (fun first treated => absurd ⟨first, treated⟩ hrule) hadmitted

theorem Policy.Permits.mono (hstrict : A.AtLeastAsStrict B) (hs : c.Below d) (hg : g.Below h)
    {owner : Owner} (hA : A.Permits c g code vendor owner) : B.Permits d h code vendor owner := by
  cases owner with
  | purpose p => exact PermitsPurpose.mono hstrict hs hg hA
  | location => exact FeaturePolicy.Permits.mono hstrict.location hs hA

end Owners

/-! ## Auctions -/

namespace Policy

variable {A B : Policy} {c d : Signal} {g h : DeclarationSource}

theorem AtLeastAsStrict.applies_eq_false (hstrict : A.AtLeastAsStrict B) {applies : Option Bool}
    (hA : A.applies applies = false) : B.applies applies = false := by
  cases applies with
  | some requested => exact hA
  | none => exact eq_false_of_imp hstrict.appliesByDefault hA

/-- A less strict policy clears on stronger evidence what a stricter one clears. -/
theorem ClearsOnRequest.mono (hstrict : A.AtLeastAsStrict B) {consent consent' : Option Signal}
    (hconsent : ∀ c, consent = some c → ∃ d, consent' = some d ∧ c.Below d) (hg : g.Below h)
    {applies : Option Bool} {b : Bidder} {f : Flag}
    (hA : A.ClearsOnRequest applies consent g b f) :
    B.ClearsOnRequest applies consent' h b f := by
  rcases hA with hoff | hoff | ⟨c, hc, hpermits⟩
  · exact .inl (eq_false_of_imp hstrict.enabled hoff)
  · exact .inr (.inl (hstrict.applies_eq_false hoff))
  · obtain ⟨d, hd, hs⟩ := hconsent c hc
    exact .inr (.inr ⟨d, hd, hpermits.mono hstrict hs hg⟩)

/-- A stricter policy restricts every bidder at least as much, with or without consent. In
particular basic enforcement allows what full enforcement allows, and a purpose that is not enforced
allows what basic enforcement allows. -/
theorem restrictsAtMost_of_atLeastAsStrict (hstrict : A.AtLeastAsStrict B) :
    (∀ applies consent source bidders, List.Forall₂ Permission.RestrictsAtMost
        (B.enforceRequest applies consent source bidders).1
        (A.enforceRequest applies consent source bidders).1) ∧
      (∀ s source bidders, List.Forall₂ Permission.RestrictsAtMost
        (B.enforce s source bidders).1 (A.enforce s source bidders).1) ∧
      ∀ p s checksVendors vendor d,
        (Strictness.full.allows p s checksVendors vendor d = true →
          Strictness.basic.allows p s checksVendors vendor d = true) ∧
        (Strictness.basic.allows p s checksVendors vendor d = true →
          Strictness.off.allows p s checksVendors vendor d = true) := by
  refine ⟨fun applies consent source bidders => ?_, fun s source bidders => ?_,
    fun p s checksVendors vendor d => ⟨Strictness.allows_basic_of_full, fun _ => ?_⟩⟩
  · apply verdicts_restrictsAtMost (B.enforceRequest_verdicts applies consent source bidders)
      (A.enforceRequest_verdicts applies consent source bidders)
    intro b f hA
    exact hA.mono hstrict (fun c hc => ⟨c, hc, .refl c⟩) (.refl source)
  · apply verdicts_restrictsAtMost (B.enforce_verdicts s source bidders)
      (A.enforce_verdicts s source bidders)
    intro b f hA
    exact hA.imp (eq_false_of_imp hstrict.enabled)
      (Permits.mono hstrict (.refl s) (.refl source))
  · exact Strictness.allows_off p s checksVendors vendor d

/-- A policy that checks neither vendors nor declarations, and opens purpose 1 where it was not
shown. -/
def lenient : Policy where
  purposes := .ofFn fun _ => { strictness := .basic, checksVendors := false }
  treatment := .access

/-- What a policy leaves of the flags of one bidder, for a user who consents to purpose 2 and was
not shown purpose 1. -/
def unshownRequest (policy : Policy) : List Permission :=
  (policy.enforceRequest (some true)
    (some ({ purposeConsents := .ofList [2], purposeOneTreatment := true } : Consent).signal)
    (fun _ => none) [⟨"rubicon", some 52⟩]).1

/-- The strictest policy keeps every flag where the lenient one clears two. -/
theorem restrictsAtMost_noAccess_lenient :
    { treatment := .noAccess : Policy }.AtLeastAsStrict lenient ∧
      List.Forall₂ Permission.RestrictsAtMost lenient.unshownRequest
        { treatment := .noAccess : Policy }.unshownRequest ∧
      lenient.unshownRequest.map (fun q => q.restrictions.restricted) =
        [[.blockAnalyticsReport, .removeUserFpd, .removeUserIds, .maskGeo, .maskDeviceIp]] ∧
      { treatment := .noAccess : Policy }.unshownRequest.map (fun q => q.restrictions.restricted) =
        [Flag.all] := by
  have h := noAccess_atLeastAsStrict lenient
  refine ⟨h, ?_, by decide, by decide⟩
  exact (restrictsAtMost_of_atLeastAsStrict h).1 (some true) _ _ _

/-- More bits in the signal and more declared purposes restrict no bidder more, where the publisher
decided alike. A missing consent restricts at least as much as any consent. -/
theorem restrictsAtMost_of_below (policy : Policy) (applies : Option Bool)
    (bidders : List Bidder) :
    (∀ c d g h, Signal.Below c d → DeclarationSource.Below g h →
        List.Forall₂ Permission.RestrictsAtMost
          (policy.enforceRequest applies (some d) h bidders).1
          (policy.enforceRequest applies (some c) g bidders).1) ∧
      ∀ consent source, List.Forall₂ Permission.RestrictsAtMost
        (policy.enforceRequest applies consent source bidders).1
        (policy.enforceRequest applies none source bidders).1 := by
  refine ⟨fun c d g h hs hg => ?_, fun consent source => ?_⟩
  · apply verdicts_restrictsAtMost (policy.enforceRequest_verdicts applies (some d) h bidders)
      (policy.enforceRequest_verdicts applies (some c) g bidders)
    intro b f hclears
    refine hclears.mono (.refl policy) (fun c' hc => ⟨d, rfl, ?_⟩) hg
    cases hc
    exact hs
  · apply verdicts_restrictsAtMost (policy.enforceRequest_verdicts applies consent source bidders)
      (policy.enforceRequest_verdicts applies none source bidders)
    intro b f hclears
    exact hclears.mono (.refl policy) (fun c hc => by cases hc) (.refl source)

/-- What the default policy leaves of the flags of one bidder. -/
def listedRequest (consent : Consent) (list : VendorList) : List Permission :=
  (({} : Policy).enforceRequest (some true) (some consent.signal) list.source
    [⟨"rubicon", some 52⟩]).1

/-- A consent for the vendor and an entry for it in the list clear the flag of purpose 2. -/
theorem restrictsAtMost_vendorConsent :
    Signal.Below ({ purposeConsents := .ofList [2] } : Consent).signal
        ({ purposeConsents := .ofList [2], vendorConsents := .ofList [52] } : Consent).signal ∧
      DeclarationSource.Below (VendorList.ofDeclarations 1 []).source
        (VendorList.ofDeclarations 1 [{ id := 52, purposes := .ofList [2] }]).source ∧
      List.Forall₂ Permission.RestrictsAtMost
        (listedRequest { purposeConsents := .ofList [2], vendorConsents := .ofList [52] }
          (.ofDeclarations 1 [{ id := 52, purposes := .ofList [2] }]))
        (listedRequest { purposeConsents := .ofList [2] } (.ofDeclarations 1 [])) ∧
      (listedRequest { purposeConsents := .ofList [2], vendorConsents := .ofList [52] }
          (.ofDeclarations 1 [{ id := 52, purposes := .ofList [2] }])).map
            (fun q => q.restrictions.restricted) =
        [[.blockPixelSync, .blockAnalyticsReport, .removeUserFpd, .removeUserIds, .maskGeo,
          .maskDeviceIp]] ∧
      (listedRequest { purposeConsents := .ofList [2] } (.ofDeclarations 1 [])).map
          (fun q => q.restrictions.restricted) = [Flag.all] := by
  have hs : Signal.Below ({ purposeConsents := .ofList [2] } : Consent).signal
      ({ purposeConsents := .ofList [2], vendorConsents := .ofList [52] } : Consent).signal :=
    ⟨fun _ => id, fun _ => id, fun v hv => by simp [Consent.signal] at hv, fun _ => id,
      fun _ => id, rfl, fun _ _ => rfl⟩
  have hg : DeclarationSource.Below (VendorList.ofDeclarations 1 []).source
      (VendorList.ofDeclarations 1 [{ id := 52, purposes := .ofList [2] }]).source := by
    refine ⟨fun v id hid => ?_, fun v id hid => ?_, fun v id hid => ?_⟩ <;>
      simp [DeclarationSource.resolve, VendorList.find?_ofDeclarations, Declaration.none] at hid
  refine ⟨hs, hg, ?_, by decide, by decide⟩
  exact (restrictsAtMost_of_below {} (some true) _).1 _ _ _ _ hs hg

end Policy

end ConsentGate
