import ConsentGate.Enforcement

/-!
# The rule of enforcement

Who is admitted to what, said of the data alone: of the answers of the signal, the entries of the
vendor list and the lists of exceptions. Each flag has one owner, a purpose or special feature 1,
and a bidder loses the flag when the owner admits it. No permission and no pass appears here.

Results:

* `Purpose.mem_owned_iff`, `mem_locationFlags_iff`: every flag has exactly one owner.
* `fullyAllowed_iff`, `Strictness.allows_iff`: the decision about a vendor that is not exempt
  follows the rule.
* `PurposePolicy.permits_iff`, `FeaturePolicy.permits_iff`: so does the decision of a pass.
-/

namespace ConsentGate

/-! ## Owners -/

/-- Who may clear a flag. -/
inductive Owner where
  | purpose (p : Purpose)
  /-- Special feature 1. -/
  | location
  deriving DecidableEq

/-- The owner of a flag. -/
def Flag.owner : Flag → Owner
  | .blockPixelSync => .purpose .one
  | .blockBidderRequest => .purpose .two
  | .removeUserFpd | .removeUserIds => .purpose .four
  | .blockAnalyticsReport => .purpose .seven
  | .maskGeo | .maskDeviceIp => .location

theorem Purpose.mem_owned_iff {p : Purpose} {f : Flag} : f ∈ p.owned ↔ f.owner = .purpose p := by
  cases p <;> cases f <;> decide

theorem mem_locationFlags_iff {f : Flag} : f ∈ locationFlags ↔ f.owner = .location := by
  cases f <;> decide

/-! ## Grounds -/

/-- The user consents to the purpose and, where vendors are checked, to the vendor. -/
def Signal.ConsentOpen (s : Signal) (p : Purpose) (checksVendors : Bool)
    (vendor : Option VendorId) : Prop :=
  s.purposeConsent p = true ∧
    (checksVendors = true → ∃ v, vendor = some v ∧ s.vendorConsent v = true)

/-- The purpose may rest on legitimate interest, which was shown to the user for the purpose and,
where vendors are checked, for the vendor. -/
def Signal.InterestOpen (s : Signal) (p : Purpose) (checksVendors : Bool)
    (vendor : Option VendorId) : Prop :=
  p ∈ [.two, .seven, .eight, .nine, .ten] ∧ s.purposeInterest p = true ∧
    (checksVendors = true → ∃ v, vendor = some v ∧ s.vendorInterest v = true)

/-- The purpose stands in a part of the vendor's declaration. A bidder without vendor id declares
nothing, and neither does a vendor that is not listed. -/
def DeclarationSource.Declares (source : DeclarationSource)
    (part : Declaration → OrderedSet PurposeId) (vendor : Option VendorId) (p : Purpose) : Prop :=
  ∃ v d, vendor = some v ∧ source v = some d ∧ p.id ∈ part d

/-- When a vendor that is not exempt is admitted to a purpose. -/
inductive Strictness.Admits (s : Signal) (source : DeclarationSource) (p : Purpose)
    (checksVendors : Bool) (vendor : Option VendorId) : Strictness → Prop
  | off : Admits s source p checksVendors vendor .off
  | basicConsent (ground : s.ConsentOpen p checksVendors vendor) :
    Admits s source p checksVendors vendor .basic
  | basicInterest (ground : s.InterestOpen p checksVendors vendor) :
    Admits s source p checksVendors vendor .basic
  | fullConsent (free : vendor.bind (s.publisherRestriction p) = none)
    (declared : source.Declares Declaration.purposes vendor p)
    (ground : s.ConsentOpen p checksVendors vendor) :
    Admits s source p checksVendors vendor .full
  | fullInterest (free : vendor.bind (s.publisherRestriction p) = none)
    (declared : source.Declares Declaration.interestPurposes vendor p)
    (ground : s.InterestOpen p checksVendors vendor) :
    Admits s source p checksVendors vendor .full
  /-- A flexible vendor may be switched from legitimate interest to the consent required. -/
  | requiredConsent (bound : vendor.bind (s.publisherRestriction p) = some .requireConsent)
    (declared : source.Declares Declaration.purposes vendor p ∨
      source.Declares Declaration.flexiblePurposes vendor p ∧
        source.Declares Declaration.interestPurposes vendor p)
    (ground : s.ConsentOpen p checksVendors vendor) :
    Admits s source p checksVendors vendor .full
  /-- A flexible vendor may be switched from consent to the legitimate interest required. -/
  | requiredInterest
    (bound : vendor.bind (s.publisherRestriction p) = some .requireLegitimateInterest)
    (declared : source.Declares Declaration.interestPurposes vendor p ∨
      source.Declares Declaration.flexiblePurposes vendor p ∧
        source.Declares Declaration.purposes vendor p)
    (ground : s.InterestOpen p checksVendors vendor) :
    Admits s source p checksVendors vendor .full

/-! ## Bidders -/

/-- The bidder has a code, and the code is on the list of exceptions. -/
def Exempt (exceptions : OrderedSet String) (code : Option String) : Prop :=
  ∃ c, code = some c ∧ c ∈ exceptions

/-- When the pass of a purpose permits a bidder. -/
def PurposePolicy.Permits (policy : PurposePolicy) (p : Purpose) (s : Signal)
    (source : DeclarationSource) (code : Option String) (vendor : Option VendorId) : Prop :=
  Exempt policy.exceptions code ∨
    policy.strictness.Admits s source p policy.checksVendors vendor

/-- When the pass of special feature 1 permits a bidder. -/
def FeaturePolicy.Permits (policy : FeaturePolicy) (s : Signal) (code : Option String) : Prop :=
  policy.enforced = false ∨ s.featureOptIn preciseGeolocation = true ∨
    Exempt policy.exceptions code

/-- When a purpose permits a bidder under a policy. The treatment rule counts for purpose 1 alone,
and only when the signal says that purpose 1 was not shown. -/
inductive Policy.PermitsPurpose (policy : Policy) (s : Signal) (source : DeclarationSource)
    (p : Purpose) (code : Option String) (vendor : Option VendorId) : Prop
  | exempt (listed : Exempt (policy.purposes.get p).exceptions code)
  | unshown (first : p = .one) (treated : s.purposeOneTreatment = true)
    (rule : policy.treatment = .access)
  | evaluated (rule : p = .one → s.purposeOneTreatment = true → policy.treatment = .ignore)
    (admitted : (policy.purposes.get p).strictness.Admits s source p
      (policy.purposes.get p).checksVendors vendor)

/-- When the owner of a flag permits a bidder under a policy. -/
def Policy.Permits (policy : Policy) (s : Signal) (source : DeclarationSource)
    (code : Option String) (vendor : Option VendorId) : Owner → Prop
  | .purpose p => policy.PermitsPurpose s source p code vendor
  | .location => policy.location.Permits s code

/-! ## Decisions follow the rule -/

theorem Signal.opensConsent_iff {s : Signal} {p : Purpose} {checksVendors : Bool}
    {vendor : Option VendorId} :
    s.opensConsent p checksVendors vendor = true ↔ s.ConsentOpen p checksVendors vendor := by
  cases checksVendors <;> cases vendor <;> simp [opensConsent, ConsentOpen]

theorem LegalBasis.interest_permittedFor_iff {p : Purpose} :
    LegalBasis.legitimateInterest.permittedFor p = true ↔
      p ∈ [.two, .seven, .eight, .nine, .ten] := by
  cases p <;> decide

theorem Signal.opensInterest_iff {s : Signal} {p : Purpose} {checksVendors : Bool}
    {vendor : Option VendorId} :
    s.opensInterest p checksVendors vendor = true ↔ s.InterestOpen p checksVendors vendor := by
  rw [opensInterest, InterestOpen, ← LegalBasis.interest_permittedFor_iff]
  cases checksVendors <;> cases vendor <;> simp [and_assoc]

/-- A purpose stands in a part of the declaration that is resolved for a bidder exactly when the
bidder's vendor declares it. -/
theorem DeclarationSource.mem_resolve_iff {source : DeclarationSource}
    {part : Declaration → OrderedSet PurposeId} (hnone : ∀ id, part (.none id) = ∅)
    {vendor : Option VendorId} {p : Purpose} :
    p.id ∈ part (source.resolve vendor) ↔ source.Declares part vendor p := by
  cases vendor with
  | none => simp [resolve, Declares, hnone]
  | some v => cases hv : source v <;> simp [resolve, Declares, hnone, hv]

section Declared

variable {source : DeclarationSource} {vendor : Option VendorId} {p : Purpose}

theorem Declaration.consent_resolve_iff :
    (source.resolve vendor).consent p = true ↔ source.Declares purposes vendor p := by
  rw [consent, OrderedSet.contains_iff]
  exact source.mem_resolve_iff fun _ => rfl

theorem Declaration.interest_resolve_iff :
    (source.resolve vendor).interest p = true ↔ source.Declares interestPurposes vendor p := by
  rw [interest, OrderedSet.contains_iff]
  exact source.mem_resolve_iff fun _ => rfl

theorem Declaration.flexible_resolve_iff :
    (source.resolve vendor).flexible p = true ↔ source.Declares flexiblePurposes vendor p := by
  rw [flexible, OrderedSet.contains_iff]
  exact source.mem_resolve_iff fun _ => rfl

/-- A vendor bound to consent declares it, or declares legitimate interest and is flexible. -/
theorem Declaration.acceptsConsent_resolve_iff :
    (source.resolve vendor).acceptsConsent p = true ↔
      source.Declares purposes vendor p ∨
        source.Declares flexiblePurposes vendor p ∧ source.Declares interestPurposes vendor p := by
  rw [acceptsConsent, Bool.or_eq_true, Bool.and_eq_true, consent_resolve_iff, flexible_resolve_iff,
    interest_resolve_iff]

/-- A vendor bound to legitimate interest declares it, or declares consent and is flexible. -/
theorem Declaration.acceptsInterest_resolve_iff :
    (source.resolve vendor).acceptsInterest p = true ↔
      source.Declares interestPurposes vendor p ∨
        source.Declares flexiblePurposes vendor p ∧ source.Declares purposes vendor p := by
  rw [acceptsInterest, Bool.or_eq_true, Bool.and_eq_true, interest_resolve_iff,
    flexible_resolve_iff, consent_resolve_iff]

end Declared

section Decisions

variable {p : Purpose} {s : Signal} {source : DeclarationSource} {checksVendors : Bool}
  {vendor : Option VendorId}

/-- Full enforcement follows the rule. What the publisher imposes selects the cases of the rule
that can apply. -/
theorem fullyAllowed_iff :
    fullyAllowed p s checksVendors vendor (source.resolve vendor) = true ↔
      Strictness.full.Admits s source p checksVendors vendor := by
  rw [fullyAllowed]
  cases hr : vendor.bind (s.publisherRestriction p) with
  | none =>
    simp only [Bool.or_eq_true, Bool.and_eq_true, Declaration.consent_resolve_iff,
      Declaration.interest_resolve_iff, Signal.opensConsent_iff, Signal.opensInterest_iff]
    constructor
    · rintro (⟨hd, hg⟩ | ⟨hd, hg⟩)
      · exact .fullConsent hr hd hg
      · exact .fullInterest hr hd hg
    · intro h
      cases h with
      | fullConsent _ hd hg => exact .inl ⟨hd, hg⟩
      | fullInterest _ hd hg => exact .inr ⟨hd, hg⟩
      | requiredConsent hb | requiredInterest hb => cases hr.symm.trans hb
  | some restriction =>
    cases restriction with
    | notAllowed =>
      constructor
      · intro h
        exact absurd h Bool.false_ne_true
      · intro h
        cases h with
        | fullConsent hb | fullInterest hb | requiredConsent hb | requiredInterest hb =>
          cases hr.symm.trans hb
    | requireConsent =>
      simp only [Bool.and_eq_true, Declaration.acceptsConsent_resolve_iff, Signal.opensConsent_iff]
      constructor
      · rintro ⟨hd, hg⟩
        exact .requiredConsent hr hd hg
      · intro h
        cases h with
        | requiredConsent _ hd hg => exact ⟨hd, hg⟩
        | fullConsent hb | fullInterest hb | requiredInterest hb => cases hr.symm.trans hb
    | requireLegitimateInterest =>
      simp only [Bool.and_eq_true, Declaration.acceptsInterest_resolve_iff,
        Signal.opensInterest_iff]
      constructor
      · rintro ⟨hd, hg⟩
        exact .requiredInterest hr hd hg
      · intro h
        cases h with
        | requiredInterest _ hd hg => exact ⟨hd, hg⟩
        | fullConsent hb | fullInterest hb | requiredConsent hb => cases hr.symm.trans hb

/-- The decision about a vendor that is not exempt follows the rule. -/
theorem Strictness.allows_iff {strictness : Strictness} :
    strictness.allows p s checksVendors vendor (source.resolve vendor) = true ↔
      strictness.Admits s source p checksVendors vendor := by
  cases strictness with
  | off => exact ⟨fun _ => .off, fun _ => rfl⟩
  | basic =>
    rw [allows, Bool.or_eq_true, Signal.opensConsent_iff, Signal.opensInterest_iff]
    constructor
    · rintro (h | h)
      · exact .basicConsent h
      · exact .basicInterest h
    · intro h
      cases h with
      | basicConsent hg => exact .inl hg
      | basicInterest hg => exact .inr hg
  | full => exact fullyAllowed_iff

end Decisions

theorem exempts_iff {exceptions : OrderedSet String} {code : Option String} :
    exempts exceptions code = true ↔ Exempt exceptions code := by
  cases code <;> simp [exempts, Exempt]

/-- The decision of a purpose pass that checks vendors as configured follows the rule. -/
theorem PurposePolicy.permits_iff {policy : PurposePolicy} {p : Purpose} {s : Signal}
    {source : DeclarationSource} {q : Permission} :
    policy.permits p s source policy.checksVendors q = true ↔
      policy.Permits p s source q.bidder q.vendor := by
  rw [permits, Bool.or_eq_true, Strictness.allows_iff, PurposePolicy.exempts, exempts_iff, Permits]

/-- The decision of the pass of special feature 1 follows the rule. -/
theorem FeaturePolicy.permits_iff {policy : FeaturePolicy} {s : Signal} {q : Permission} :
    policy.permits (s.featureOptIn preciseGeolocation) q = true ↔ policy.Permits s q.bidder := by
  rw [permits, Bool.or_eq_true, Bool.or_eq_true, Bool.not_eq_true', FeaturePolicy.exempts,
    exempts_iff, Permits, or_assoc]

end ConsentGate
