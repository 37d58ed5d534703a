import ConsentGate.Proofs.Influence

/-!
# Switching grounds

What a publisher's restrictions change. A restriction takes grounds away from a vendor, with one
exception: a vendor that is flexible may be switched to a ground that it does not declare, and so be
admitted where nobody restricts it and its own ground is closed. Restrictions reach full enforcement
only, and flexible purposes reach restricted vendors only.

Results:

* `Strictness.admits_full_iff`: full enforcement, with the ground as a parameter.
* `Strictness.Admits.switches`: a vendor that only the restriction admits is switched.
* `Policy.PermitsPurpose.unrestricted_iff`: whom restrictions do not concern.
* `Policy.enforce_restricted`: what restrictions and flexible purposes make of one flag.
-/

namespace ConsentGate

/-! ## Grounds as parameters -/

namespace LegalBasis

/-- The ground that a vendor on this one may be switched to. -/
def other : LegalBasis → LegalBasis
  | consent => legitimateInterest
  | legitimateInterest => consent

/-- The restriction that binds a vendor to a ground. -/
def requirement : LegalBasis → RestrictionType
  | consent => .requireConsent
  | legitimateInterest => .requireLegitimateInterest

/-- The part of a declaration that lists the purposes on a ground. -/
def declared : LegalBasis → Declaration → OrderedSet PurposeId
  | consent => Declaration.purposes
  | legitimateInterest => Declaration.interestPurposes

end LegalBasis

/-- The signal of a publisher who restricts nothing. -/
def Signal.unrestricted (s : Signal) : Signal :=
  { s with publisherRestriction := fun _ _ => none }

@[simp] theorem Signal.publisherRestriction_unrestricted (s : Signal) (p : Purpose) (v : VendorId) :
    s.unrestricted.publisherRestriction p v = none := rfl

/-- The bits of a ground are set for a purpose and, where vendors are checked, for a vendor. -/
def Signal.Carries (s : Signal) (p : Purpose) (checksVendors : Bool) (v : VendorId) :
    LegalBasis → Prop
  | .consent => s.purposeConsent p = true ∧ (checksVendors = true → s.vendorConsent v = true)
  | .legitimateInterest =>
    s.purposeInterest p = true ∧ (checksVendors = true → s.vendorInterest v = true)

/-- The publisher switches a vendor to a ground that is open and that the vendor does not declare.
The vendor is flexible, and the ground that it declares is closed. -/
structure Signal.Switches (s : Signal) (source : DeclarationSource) (p : Purpose)
    (checksVendors : Bool) (v : VendorId) (basis : LegalBasis) : Prop where
  bound : s.publisherRestriction p v = some basis.requirement
  flexible : source.Declares Declaration.flexiblePurposes (some v) p
  declares : source.Declares basis.other.declared (some v) p
  notDeclares : ¬ source.Declares basis.declared (some v) p
  permitted : basis.permittedFor p = true
  carries : s.Carries p checksVendors v basis
  closed : ¬ s.Carries p checksVendors v basis.other ∨ basis.other.permittedFor p = false

/-! ## Decisions -/

section Decisions

variable {s : Signal} {source : DeclarationSource} {p : Purpose} {checks : Bool} {v : VendorId}
  {vendor : Option VendorId} {strictness : Strictness}

theorem Signal.consentOpen_iff :
    s.ConsentOpen p checks (some v) ↔
      LegalBasis.consent.permittedFor p = true ∧ s.Carries p checks v .consent := by
  simp [ConsentOpen, Carries, LegalBasis.consent_permittedFor]

theorem Signal.interestOpen_iff :
    s.InterestOpen p checks (some v) ↔
      LegalBasis.legitimateInterest.permittedFor p = true ∧
        s.Carries p checks v .legitimateInterest := by
  simp [InterestOpen, Carries, LegalBasis.interest_permittedFor_iff]

/-- Full enforcement admits a vendor on a ground that is open, if nobody restricts the vendor and
it declares the ground, or if the publisher binds it to the ground and it declares the ground or is
flexible on the other one. -/
theorem Strictness.admits_full_iff :
    Admits s source p checks (some v) .full ↔
      ∃ basis : LegalBasis, (basis.permittedFor p = true ∧ s.Carries p checks v basis) ∧
        (s.publisherRestriction p v = none ∧ source.Declares basis.declared (some v) p ∨
          s.publisherRestriction p v = some basis.requirement ∧
            (source.Declares basis.declared (some v) p ∨
              source.Declares Declaration.flexiblePurposes (some v) p ∧
                source.Declares basis.other.declared (some v) p)) := by
  constructor
  · intro h
    cases h with
    | fullConsent free declared ground =>
      exact ⟨.consent, Signal.consentOpen_iff.1 ground, .inl ⟨free, declared⟩⟩
    | fullInterest free declared ground =>
      exact ⟨.legitimateInterest, Signal.interestOpen_iff.1 ground, .inl ⟨free, declared⟩⟩
    | requiredConsent bound declared ground =>
      exact ⟨.consent, Signal.consentOpen_iff.1 ground, .inr ⟨bound, declared⟩⟩
    | requiredInterest bound declared ground =>
      exact ⟨.legitimateInterest, Signal.interestOpen_iff.1 ground, .inr ⟨bound, declared⟩⟩
  · rintro ⟨basis, ground, ⟨free, declared⟩ | ⟨bound, declared⟩⟩
    · cases basis with
      | consent => exact .fullConsent free declared (Signal.consentOpen_iff.2 ground)
      | legitimateInterest => exact .fullInterest free declared (Signal.interestOpen_iff.2 ground)
    · cases basis with
      | consent => exact .requiredConsent bound declared (Signal.consentOpen_iff.2 ground)
      | legitimateInterest =>
        exact .requiredInterest bound declared (Signal.interestOpen_iff.2 ground)

/-- Nobody is admitted fully without a vendor id, since nothing is declared without one. -/
theorem Strictness.not_admits_full_none : ¬ Admits s source p checks none .full := by
  intro h
  cases h with
  | fullConsent _ declared _ | fullInterest _ declared _ =>
    obtain ⟨_, _, hv, -⟩ := declared
    cases hv
  | requiredConsent bound _ _ | requiredInterest bound _ _ => cases bound

/-- Without restrictions, full enforcement admits a vendor on a declared ground that is open. -/
theorem Strictness.admits_full_unrestricted_iff :
    Admits s.unrestricted source p checks (some v) .full ↔
      ∃ basis : LegalBasis, (basis.permittedFor p = true ∧ s.Carries p checks v basis) ∧
        source.Declares basis.declared (some v) p := by
  have hcarries (basis : LegalBasis) :
      s.unrestricted.Carries p checks v basis ↔ s.Carries p checks v basis := by
    cases basis <;> rfl
  simp [admits_full_iff, hcarries]

/-- A vendor that is admitted, and would not be without restrictions, is switched. -/
theorem Strictness.Admits.switches (h : Admits s source p checks (some v) .full)
    (h₀ : ¬ Admits s.unrestricted source p checks (some v) .full) :
    ∃ basis, s.Switches source p checks v basis := by
  rw [admits_full_unrestricted_iff] at h₀
  obtain ⟨basis, ⟨permitted, carries⟩, hground⟩ := admits_full_iff.1 h
  have notDeclares : ¬ source.Declares basis.declared (some v) p := fun declared =>
    h₀ ⟨basis, ⟨permitted, carries⟩, declared⟩
  obtain ⟨bound, flexible, declares⟩ : s.publisherRestriction p v = some basis.requirement ∧
      source.Declares Declaration.flexiblePurposes (some v) p ∧
      source.Declares basis.other.declared (some v) p := by
    rcases hground with ⟨-, declared⟩ | ⟨bound, declared | hswitch⟩
    · exact absurd declared notDeclares
    · exact absurd declared notDeclares
    · exact ⟨bound, hswitch⟩
  refine ⟨basis, bound, flexible, declares, notDeclares, permitted, carries, ?_⟩
  by_cases hother : basis.other.permittedFor p = true
  · exact .inl fun hcarries => h₀ ⟨basis.other, ⟨hother, hcarries⟩, declares⟩
  · exact .inr (eq_false_of_ne_true hother)

/-- A vendor that is switched is admitted, and would not be without restrictions. -/
theorem Signal.Switches.admits {basis : LegalBasis} (h : s.Switches source p checks v basis) :
    Strictness.Admits s source p checks (some v) .full ∧
      ¬ Strictness.Admits s.unrestricted source p checks (some v) .full := by
  refine ⟨?_, fun h₀ => ?_⟩
  · exact Strictness.admits_full_iff.2 ⟨basis, ⟨h.permitted, h.carries⟩,
      .inr ⟨h.bound, .inr ⟨h.flexible, h.declares⟩⟩⟩
  · obtain ⟨ground, ⟨permitted, carries⟩, declared⟩ := Strictness.admits_full_unrestricted_iff.1 h₀
    have hground : ground = basis ∨ ground = basis.other := by
      cases ground <;> cases basis <;> simp [LegalBasis.other]
    rcases hground with rfl | rfl
    · exact h.notDeclares declared
    · rcases h.closed with hclosed | hclosed
      · exact hclosed carries
      · exact Bool.false_ne_true (hclosed.symm.trans permitted)

/-- Restrictions reach full enforcement of vendors only. -/
theorem Strictness.admits_unrestricted_iff (h : strictness ≠ .full ∨ vendor = none) :
    Admits s.unrestricted source p checks vendor strictness ↔
      Admits s source p checks vendor strictness := by
  rw [← allows_iff, ← allows_iff]
  cases strictness with
  | off | basic => exact Iff.rfl
  | full =>
    obtain rfl := h.resolve_left fun hne => hne rfl
    exact Iff.rfl

/-- Two lists agree on the grounds that a vendor declares for a purpose, not on where it is
flexible. -/
structure DeclarationSource.AgreeOnGrounds (g h : DeclarationSource) (p : Purpose) (v : VendorId) :
    Prop where
  purposes : p.id ∈ (g.resolve (some v)).purposes ↔ p.id ∈ (h.resolve (some v)).purposes
  interestPurposes : p.id ∈ (g.resolve (some v)).interestPurposes ↔
    p.id ∈ (h.resolve (some v)).interestPurposes

theorem DeclarationSource.AgreeOnGrounds.declares_iff {g h : DeclarationSource}
    (hg : g.AgreeOnGrounds h p v) (basis : LegalBasis) :
    g.Declares basis.declared (some v) p ↔ h.Declares basis.declared (some v) p := by
  cases basis with
  | consent =>
    have hnone (id : VendorId) : Declaration.purposes (.none id) = ∅ := rfl
    exact (mem_resolve_iff hnone).symm.trans (hg.purposes.trans (mem_resolve_iff hnone))
  | legitimateInterest =>
    have hnone (id : VendorId) : Declaration.interestPurposes (.none id) = ∅ := rfl
    exact (mem_resolve_iff hnone).symm.trans (hg.interestPurposes.trans (mem_resolve_iff hnone))

/-- Where a vendor is flexible does not matter unless the publisher restricts it. -/
theorem Strictness.admits_iff_of_agreeOnGrounds {g h : DeclarationSource}
    (hfree : ∀ v, vendor = some v → s.publisherRestriction p v = none)
    (hg : ∀ v, vendor = some v → g.AgreeOnGrounds h p v) :
    Admits s g p checks vendor strictness ↔ Admits s h p checks vendor strictness := by
  cases strictness with
  | off | basic =>
    rw [← allows_iff, ← allows_iff]
    exact Iff.rfl
  | full =>
    cases vendor with
    | none => exact iff_of_false not_admits_full_none not_admits_full_none
    | some v =>
      simp [admits_full_iff, hfree v rfl, (hg v rfl).declares_iff]

end Decisions

/-! ## Owners -/

theorem exempt_some_iff {exceptions : OrderedSet String} {code : String} :
    Exempt exceptions (some code) ↔ code ∈ exceptions := by
  simp [Exempt]

namespace Policy

variable {policy : Policy} {s : Signal} {source : DeclarationSource} {p : Purpose}
  {code : Option String} {vendor : Option VendorId}

/-- Purposes with the same decision about a vendor permit the same bidders. -/
theorem PermitsPurpose.congr {s' : Signal} {source' : DeclarationSource}
    (htreated : s.purposeOneTreatment = s'.purposeOneTreatment)
    (h : (policy.purposes.get p).strictness.Admits s source p (policy.purposes.get p).checksVendors
        vendor ↔
      (policy.purposes.get p).strictness.Admits s' source' p (policy.purposes.get p).checksVendors
        vendor) :
    policy.PermitsPurpose s source p code vendor ↔
      policy.PermitsPurpose s' source' p code vendor := by
  constructor
  · intro hp
    cases hp with
    | exempt listed => exact .exempt listed
    | unshown first treated rule => exact .unshown first (htreated ▸ treated) rule
    | evaluated rule admitted => exact .evaluated (htreated ▸ rule) (h.1 admitted)
  · intro hp
    cases hp with
    | exempt listed => exact .exempt listed
    | unshown first treated rule => exact .unshown first (htreated ▸ treated) rule
    | evaluated rule admitted => exact .evaluated (htreated ▸ rule) (h.2 admitted)

/-- Restrictions do not concern a purpose that is not enforced fully, an exempt bidder, or a bidder
without vendor id. -/
theorem PermitsPurpose.unrestricted_iff
    (h : (policy.purposes.get p).strictness ≠ .full ∨
      Exempt (policy.purposes.get p).exceptions code ∨ vendor = none) :
    policy.PermitsPurpose s.unrestricted source p code vendor ↔
      policy.PermitsPurpose s source p code vendor := by
  rcases h with hstrictness | hexempt | hvendor
  · exact congr rfl (Strictness.admits_unrestricted_iff (.inl hstrictness))
  · exact iff_of_true (.exempt hexempt) (.exempt hexempt)
  · exact congr rfl (Strictness.admits_unrestricted_iff (.inr hvendor))

/-- A purpose permits a bidder that it would not permit without restrictions exactly where it is
enforced fully, the bidder is not exempt, and the bidder's vendor is switched. -/
theorem permitsPurpose_and_not_unrestricted_iff :
    policy.PermitsPurpose s source p code vendor ∧
        ¬ policy.PermitsPurpose s.unrestricted source p code vendor ↔
      (p = .one → s.purposeOneTreatment = true → policy.treatment = .ignore) ∧
        ¬ Exempt (policy.purposes.get p).exceptions code ∧
        (policy.purposes.get p).strictness = .full ∧
        ∃ v, vendor = some v ∧
          ∃ basis, s.Switches source p (policy.purposes.get p).checksVendors v basis := by
  constructor
  · rintro ⟨hp, hp₀⟩
    have hconcerned : ¬ ((policy.purposes.get p).strictness ≠ .full ∨
        Exempt (policy.purposes.get p).exceptions code ∨ vendor = none) := fun h =>
      hp₀ ((PermitsPurpose.unrestricted_iff h).2 hp)
    rw [not_or, not_or, not_not] at hconcerned
    obtain ⟨hfull, hexempt, hvendor⟩ := hconcerned
    obtain ⟨v, rfl⟩ := Option.ne_none_iff_exists'.1 hvendor
    cases hp with
    | exempt listed => exact absurd listed hexempt
    | unshown first treated rule => exact absurd (.unshown first treated rule) hp₀
    | evaluated rule admitted =>
      have hnot : ¬ (policy.purposes.get p).strictness.Admits s.unrestricted source p
          (policy.purposes.get p).checksVendors (some v) := fun h => hp₀ (.evaluated rule h)
      rw [hfull] at admitted hnot
      exact ⟨rule, hexempt, hfull, v, rfl, admitted.switches hnot⟩
  · rintro ⟨hrule, hexempt, hfull, v, rfl, basis, hswitches⟩
    obtain ⟨admitted, hnot⟩ := hswitches.admits
    rw [← hfull] at admitted hnot
    refine ⟨.evaluated hrule admitted, fun h₀ => ?_⟩
    cases h₀ with
    | exempt listed => exact hexempt listed
    | unshown first treated rule => cases rule.symm.trans (hrule first treated)
    | evaluated _ admitted₀ => exact hnot admitted₀

/-! ## Flags -/

/-- Take a bidder of an auction and a flag that a purpose owns. The flag is clear, and would be set
if the publisher restricted nothing, exactly where the purpose is enforced fully, the bidder is not
exempt, and its vendor is switched. Restrictions change nothing for a purpose that is not enforced
fully, an exempt bidder, or a bidder without vendor id. Where the vendor is flexible changes nothing
unless the publisher restricts it. -/
theorem enforce_restricted (policy : Policy) (s : Signal) (source : DeclarationSource)
    {bidders : List Bidder} {i : Nat} {b : Bidder} (hi : bidders[i]? = some b) :
    ∃ q q₀, (policy.enforce s source bidders).1[i]? = some q ∧
      (policy.enforce s.unrestricted source bidders).1[i]? = some q₀ ∧
      ∀ p f, f.owner = .purpose p →
        (q.isRestricted f = false ∧ q₀.isRestricted f = true ↔
          policy.enabled = true ∧
          (p = .one → s.purposeOneTreatment = true → policy.treatment = .ignore) ∧
          b.code ∉ (policy.purposes.get p).exceptions ∧
          (policy.purposes.get p).strictness = .full ∧
          ∃ v, b.vendor = some v ∧
            ∃ basis, s.Switches source p (policy.purposes.get p).checksVendors v basis) ∧
        ((policy.purposes.get p).strictness ≠ .full ∨
            b.code ∈ (policy.purposes.get p).exceptions ∨ b.vendor = none →
          q.isRestricted f = q₀.isRestricted f) ∧
        ((∀ v, b.vendor = some v → s.publisherRestriction p v = none) →
          ∀ source' : DeclarationSource,
            (∀ v, b.vendor = some v → source.AgreeOnGrounds source' p v) →
            ∃ q', (policy.enforce s source' bidders).1[i]? = some q' ∧
              q'.isRestricted f = q.isRestricted f) := by
  obtain ⟨q, hq, hverdict⟩ :=
    exists_getElem?_of_forall₂ (policy.enforce_verdicts s source bidders) hi
  obtain ⟨q₀, hq₀, hverdict₀⟩ :=
    exists_getElem?_of_forall₂ (policy.enforce_verdicts s.unrestricted source bidders) hi
  refine ⟨q, q₀, hq, hq₀, fun p f howner => ⟨?_, fun h => ?_, fun hfree source' hagree => ?_⟩⟩
  · have hset : q₀.isRestricted f = true ↔ policy.enabled = true ∧
        ¬ policy.PermitsPurpose s.unrestricted source p (some b.code) b.vendor := by
      rw [← Bool.not_eq_false, hverdict₀.flags f, howner, Permits, not_or, Bool.not_eq_false]
    have hclear : q.isRestricted f = false ↔
        policy.enabled = false ∨ policy.PermitsPurpose s source p (some b.code) b.vendor := by
      rw [hverdict.flags f, howner, Permits]
    rw [hset, hclear, ← exempt_some_iff, ← permitsPurpose_and_not_unrestricted_iff]
    cases policy.enabled <;> simp
  · apply hverdict.isRestricted_eq hverdict₀
    rw [← exempt_some_iff] at h
    simp only [howner, Permits, PermitsPurpose.unrestricted_iff h]
  · obtain ⟨q', hq', hverdict'⟩ :=
      exists_getElem?_of_forall₂ (policy.enforce_verdicts s source' bidders) hi
    refine ⟨q', hq', hverdict'.isRestricted_eq hverdict ?_⟩
    have hsame : (policy.purposes.get p).strictness.Admits s source' p
          (policy.purposes.get p).checksVendors b.vendor ↔
        (policy.purposes.get p).strictness.Admits s source p
          (policy.purposes.get p).checksVendors b.vendor :=
      (Strictness.admits_iff_of_agreeOnGrounds hfree hagree).symm
    simp only [howner, Permits, PermitsPurpose.congr rfl hsame]

/-- A user who consents to purpose 2 and to a vendor, under a publisher who requires consent of the
vendor. -/
def requiredConsent : Signal :=
  ({ purposeConsents := .ofList [2], vendorConsents := .ofList [52],
     publisherRestrictions := [⟨2, .requireConsent, .ofList [52]⟩] } : Consent).signal

/-- A list of one vendor, which relies on legitimate interest for purpose 2 and is flexible there.
-/
def flexibleVendor : DeclarationSource :=
  (VendorList.ofDeclarations 1
    [{ id := 52, interestPurposes := .ofList [2], flexiblePurposes := .ofList [2] }]).source

/-- What the default policy leaves of the flags of the flexible vendor. -/
def flexibleAuction (s : Signal) : List Permission :=
  (({} : Policy).enforce s flexibleVendor [⟨"rubicon", some 52⟩]).1

/-- The restriction clears the flag of purpose 2, because it switches the vendor. -/
theorem enforce_restricted_flexibleVendor :
    (flexibleAuction requiredConsent).map (fun q => q.restrictions.restricted) =
        [[.blockPixelSync, .blockAnalyticsReport, .removeUserFpd, .removeUserIds, .maskGeo,
          .maskDeviceIp]] ∧
      (flexibleAuction requiredConsent.unrestricted).map (fun q => q.restrictions.restricted) =
        [Flag.all] ∧
      ∃ basis, requiredConsent.Switches flexibleVendor .two true 52 basis := by
  have hi : ([⟨"rubicon", some 52⟩] : List Bidder)[0]? = some ⟨"rubicon", some 52⟩ := rfl
  have hclear : (flexibleAuction requiredConsent)[0]?.map
      (fun q => q.isRestricted .blockBidderRequest) = some false := by decide
  have hset : (flexibleAuction requiredConsent.unrestricted)[0]?.map
      (fun q => q.isRestricted .blockBidderRequest) = some true := by decide
  refine ⟨by decide, by decide, ?_⟩
  obtain ⟨q, q₀, hq, hq₀, hflags⟩ := enforce_restricted {} requiredConsent flexibleVendor hi
  rw [flexibleAuction, hq] at hclear
  rw [flexibleAuction, hq₀] at hset
  have hswitched := (hflags .two .blockBidderRequest rfl).1.1
    ⟨Option.some.inj hclear, Option.some.inj hset⟩
  obtain ⟨-, -, -, -, v, hv, hbasis⟩ := hswitched
  obtain rfl := Option.some.inj hv
  exact hbasis

end Policy

end ConsentGate
