import ConsentGate.Consent
import ConsentGate.Proofs.Verdict

/-!
# Influence

What a flag of one bidder depends on. The owner of the flag looks at its own part of the policy, at
its own bits of the signal and, if the bidder has a vendor id, at what is known about this one
vendor. Two auctions that agree there agree on the flag, whatever else differs between them: the
other purposes, vendors and bidders, and the lists of exceptions apart from the bidder's own code.

Results:

* `Strictness.allows_eq_of_agree`: the decision about a vendor looks at nothing else.
* `Policy.permits_iff_of_agree`: neither does the owner of a flag.
* `Policy.enforce_flag_eq_of_agree`: neither does enforcement.
* `Policy.separable_enforce`: bidders do not look at each other, so that a roster may be taken apart
  and reordered.
-/

namespace ConsentGate

/-! ## Agreement -/

/-- Two policies agree on what a purpose looks at for a bidder with a code. -/
structure Policy.AgreeFor (A B : Policy) (p : Purpose) (code : String) : Prop where
  strictness : (A.purposes.get p).strictness = (B.purposes.get p).strictness
  checksVendors : (A.purposes.get p).checksVendors = (B.purposes.get p).checksVendors
  exceptions : code ∈ (A.purposes.get p).exceptions ↔ code ∈ (B.purposes.get p).exceptions
  treatment : p = .one → A.treatment = B.treatment

/-- Two signals agree on a purpose. Purposes 1 and 4 do not look at the bit for legitimate
interest. -/
structure Signal.AgreeOnPurpose (c d : Signal) (p : Purpose) : Prop where
  consent : c.purposeConsent p = d.purposeConsent p
  interest : p ∉ [.one, .four] → c.purposeInterest p = d.purposeInterest p
  treatment : p = .one → c.purposeOneTreatment = d.purposeOneTreatment

/-- Two signals agree on a vendor, as far as a purpose looks at it. -/
structure Signal.AgreeOnVendor (c d : Signal) (p : Purpose) (v : VendorId) : Prop where
  consent : c.vendorConsent v = d.vendorConsent v
  interest : p ∉ [.one, .four] → c.vendorInterest v = d.vendorInterest v
  restriction : c.publisherRestriction p v = d.publisherRestriction p v

/-- Two vendor lists agree on what a vendor declares for a purpose. A vendor that is not listed
declares nothing. -/
structure DeclarationSource.AgreeOnVendor (g h : DeclarationSource) (p : Purpose) (v : VendorId) :
    Prop where
  purposes : p.id ∈ (g.resolve (some v)).purposes ↔ p.id ∈ (h.resolve (some v)).purposes
  interestPurposes : p.id ∈ (g.resolve (some v)).interestPurposes ↔
    p.id ∈ (h.resolve (some v)).interestPurposes
  flexiblePurposes : p.id ∈ (g.resolve (some v)).flexiblePurposes ↔
    p.id ∈ (h.resolve (some v)).flexiblePurposes

/-- Two policies agree on what special feature 1 looks at for a bidder with a code. -/
structure FeaturePolicy.AgreeFor (a b : FeaturePolicy) (code : String) : Prop where
  enforced : a.enforced = b.enforced
  exceptions : code ∈ a.exceptions ↔ code ∈ b.exceptions

theorem Policy.AgreeFor.symm {A B : Policy} {p : Purpose} {code : String}
    (h : A.AgreeFor B p code) : B.AgreeFor A p code where
  strictness := h.strictness.symm
  checksVendors := h.checksVendors.symm
  exceptions := h.exceptions.symm
  treatment first := (h.treatment first).symm

theorem Signal.AgreeOnPurpose.symm {c d : Signal} {p : Purpose} (h : c.AgreeOnPurpose d p) :
    d.AgreeOnPurpose c p where
  consent := h.consent.symm
  interest hp := (h.interest hp).symm
  treatment first := (h.treatment first).symm

theorem Signal.AgreeOnVendor.symm {c d : Signal} {p : Purpose} {v : VendorId}
    (h : c.AgreeOnVendor d p v) : d.AgreeOnVendor c p v where
  consent := h.consent.symm
  interest hp := (h.interest hp).symm
  restriction := h.restriction.symm

theorem DeclarationSource.AgreeOnVendor.symm {g h : DeclarationSource} {p : Purpose} {v : VendorId}
    (hv : g.AgreeOnVendor h p v) : h.AgreeOnVendor g p v where
  purposes := hv.purposes.symm
  interestPurposes := hv.interestPurposes.symm
  flexiblePurposes := hv.flexiblePurposes.symm

/-! ## Decisions -/

section Decisions

variable {c d : Signal} {g h : DeclarationSource} {p : Purpose} {checks : Bool}
  {vendor : Option VendorId}

theorem Signal.opensConsent_eq_of_agree (hp : c.AgreeOnPurpose d p)
    (hv : ∀ v, vendor = some v → c.AgreeOnVendor d p v) :
    c.opensConsent p checks vendor = d.opensConsent p checks vendor := by
  cases vendor with
  | none => simp only [opensConsent, hp.consent, Option.any_none]
  | some v => simp only [opensConsent, hp.consent, (hv v rfl).consent, Option.any_some]

/-- Purposes 1 and 4 rest on consent alone. -/
theorem LegalBasis.interest_not_permittedFor (h : p ∈ [.one, .four]) :
    LegalBasis.legitimateInterest.permittedFor p = false := by
  simp only [List.mem_cons, List.not_mem_nil, or_false] at h
  rcases h with rfl | rfl <;> rfl

theorem Signal.opensInterest_eq_of_agree (hp : c.AgreeOnPurpose d p)
    (hv : ∀ v, vendor = some v → c.AgreeOnVendor d p v) :
    c.opensInterest p checks vendor = d.opensInterest p checks vendor := by
  by_cases hbasis : p ∈ [.one, .four]
  · rw [opensInterest, opensInterest, LegalBasis.interest_not_permittedFor hbasis]
    simp
  · cases vendor with
    | none => simp only [opensInterest, hp.interest hbasis, Option.any_none]
    | some v =>
      simp only [opensInterest, hp.interest hbasis, (hv v rfl).interest hbasis, Option.any_some]

theorem Signal.bind_publisherRestriction_eq_of_agree
    (hv : ∀ v, vendor = some v → c.AgreeOnVendor d p v) :
    vendor.bind (c.publisherRestriction p) = vendor.bind (d.publisherRestriction p) := by
  cases vendor with
  | none => rfl
  | some v => exact (hv v rfl).restriction

/-- A bidder without vendor id declares nothing in either list, whatever stands under id 0. -/
theorem DeclarationSource.AgreeOnVendor.resolve
    (hv : ∀ v, vendor = some v → g.AgreeOnVendor h p v) :
    (g.resolve vendor).consent p = (h.resolve vendor).consent p ∧
      (g.resolve vendor).interest p = (h.resolve vendor).interest p ∧
      (g.resolve vendor).flexible p = (h.resolve vendor).flexible p := by
  cases vendor with
  | none => exact ⟨rfl, rfl, rfl⟩
  | some v =>
    have h := hv v rfl
    exact ⟨decide_eq_decide.2 h.purposes, decide_eq_decide.2 h.interestPurposes,
      decide_eq_decide.2 h.flexiblePurposes⟩

/-- The decision about a vendor looks at the purpose and at this vendor only. -/
theorem Strictness.allows_eq_of_agree (strictness : Strictness) (hp : c.AgreeOnPurpose d p)
    (hs : ∀ v, vendor = some v → c.AgreeOnVendor d p v)
    (hg : ∀ v, vendor = some v → g.AgreeOnVendor h p v) :
    strictness.allows p c checks vendor (g.resolve vendor) =
      strictness.allows p d checks vendor (h.resolve vendor) := by
  have hconsent : c.opensConsent p checks vendor = d.opensConsent p checks vendor :=
    Signal.opensConsent_eq_of_agree hp hs
  have hinterest : c.opensInterest p checks vendor = d.opensInterest p checks vendor :=
    Signal.opensInterest_eq_of_agree hp hs
  obtain ⟨hdeclared, hdeclared', hflexible⟩ := DeclarationSource.AgreeOnVendor.resolve hg
  cases strictness with
  | off => rfl
  | basic => rw [allows, allows, hconsent, hinterest]
  | full =>
    simp only [allows, fullyAllowed, Declaration.acceptsConsent, Declaration.acceptsInterest,
      hconsent, hinterest, hdeclared, hdeclared', hflexible,
      Signal.bind_publisherRestriction_eq_of_agree hs]

end Decisions

/-! ## Owners -/

namespace Policy

variable {A B : Policy} {c d : Signal} {g h : DeclarationSource} {p : Purpose} {code : String}
  {vendor : Option VendorId}

theorem exempt_iff {exceptions exceptions' : OrderedSet String}
    (h : code ∈ exceptions ↔ code ∈ exceptions') :
    Exempt exceptions (some code) ↔ Exempt exceptions' (some code) := by
  simp [Exempt, h]

/-- A purpose permits a bidder wherever it permits the bidder in an auction that agrees. -/
theorem PermitsPurpose.of_agree (hpolicy : A.AgreeFor B p code) (hp : c.AgreeOnPurpose d p)
    (hs : ∀ v, vendor = some v → c.AgreeOnVendor d p v)
    (hg : ∀ v, vendor = some v → g.AgreeOnVendor h p v)
    (hA : A.PermitsPurpose c g p (some code) vendor) :
    B.PermitsPurpose d h p (some code) vendor := by
  cases hA with
  | exempt listed => exact .exempt ((exempt_iff hpolicy.exceptions).1 listed)
  | unshown first treated rule =>
    exact .unshown first ((hp.treatment first).symm.trans treated)
      ((hpolicy.treatment first).symm.trans rule)
  | evaluated rule admitted =>
    refine .evaluated (fun first treated => ?_) ?_
    · rw [← hpolicy.treatment first]
      exact rule first ((hp.treatment first).trans treated)
    · rw [← hpolicy.strictness, ← hpolicy.checksVendors, ← Strictness.allows_iff,
        ← Strictness.allows_eq_of_agree _ hp hs hg]
      exact Strictness.allows_iff.2 admitted

/-- A purpose permits the same bidders in auctions that agree on the purpose and the vendor. -/
theorem permitsPurpose_iff_of_agree (hpolicy : A.AgreeFor B p code) (hp : c.AgreeOnPurpose d p)
    (hs : ∀ v, vendor = some v → c.AgreeOnVendor d p v)
    (hg : ∀ v, vendor = some v → g.AgreeOnVendor h p v) :
    A.PermitsPurpose c g p (some code) vendor ↔ B.PermitsPurpose d h p (some code) vendor := by
  refine ⟨.of_agree hpolicy hp hs hg, .of_agree hpolicy.symm hp.symm ?_ ?_⟩
  · exact fun v hv => (hs v hv).symm
  · exact fun v hv => (hg v hv).symm

/-- Special feature 1 permits the same bidders in auctions that agree on its policy and opt-in. -/
theorem permitsLocation_iff_of_agree {a b : FeaturePolicy} (hpolicy : a.AgreeFor b code)
    (hopt : c.featureOptIn preciseGeolocation = d.featureOptIn preciseGeolocation) :
    a.Permits c (some code) ↔ b.Permits d (some code) := by
  rw [FeaturePolicy.Permits, FeaturePolicy.Permits, hpolicy.enforced, hopt,
    exempt_iff hpolicy.exceptions]

/-! ## Flags -/

/-- The permission at the place of a bidder is the verdict on the bidder. -/
theorem exists_verdict (hA : A.enabled = true) (c : Signal) (g : DeclarationSource)
    {bidders : List Bidder} {i : Nat} {b : Bidder} (hi : bidders[i]? = some b) :
    ∃ q, (A.enforce c g bidders).1[i]? = some q ∧
      Verdict b (fun f => A.Permits c g (some b.code) b.vendor f.owner) q := by
  have hverdicts := verdicts_congr (A.enforce_verdicts c g bidders) fun b f =>
    or_iff_right (by simp [hA] : ¬ A.enabled = false)
  exact exists_getElem?_of_forall₂ hverdicts hi

/-- Take a bidder with its places in two auctions under policies that are switched on. A flag that a
purpose owns is the same in both when the auctions agree on what the purpose looks at: on its policy
and the bidder's exception, on the bits for the purpose, for purpose 1 on the treatment, and on the
bits, the restriction and the declaration of the bidder's vendor. A bidder without vendor id leaves
nothing to agree on about vendors, and the flags of purposes 1 and 4 nothing about legitimate
interest. The flags of special feature 1 are the same when the auctions agree on its policy, on the
bidder's exception and on the opt-in. -/
theorem enforce_flag_eq_of_agree (hA : A.enabled = true) (hB : B.enabled = true) (c d : Signal)
    (g h : DeclarationSource) {xs ys : List Bidder} {i j : Nat} {b : Bidder}
    (hi : xs[i]? = some b) (hj : ys[j]? = some b) :
    ∃ q r, (A.enforce c g xs).1[i]? = some q ∧ (B.enforce d h ys).1[j]? = some r ∧
      (∀ p f, f.owner = .purpose p → A.AgreeFor B p b.code → c.AgreeOnPurpose d p →
        (∀ v, b.vendor = some v → c.AgreeOnVendor d p v ∧ g.AgreeOnVendor h p v) →
        q.isRestricted f = r.isRestricted f) ∧
      (b.vendor = none → ∀ p f, f.owner = .purpose p → A.AgreeFor B p b.code →
        c.AgreeOnPurpose d p → q.isRestricted f = r.isRestricted f) ∧
      ∀ f ∈ [Flag.maskGeo, .maskDeviceIp], A.location.AgreeFor B.location b.code →
        c.featureOptIn preciseGeolocation = d.featureOptIn preciseGeolocation →
        q.isRestricted f = r.isRestricted f := by
  obtain ⟨q, hq, hverdict⟩ := exists_verdict hA c g hi
  obtain ⟨r, hr, hverdict'⟩ := exists_verdict hB d h hj
  have hpurpose : ∀ p f, f.owner = .purpose p → A.AgreeFor B p b.code → c.AgreeOnPurpose d p →
      (∀ v, b.vendor = some v → c.AgreeOnVendor d p v ∧ g.AgreeOnVendor h p v) →
      q.isRestricted f = r.isRestricted f := by
    intro p f howner hpolicy hp hv
    apply hverdict.isRestricted_eq hverdict'
    simp only [howner, Permits]
    exact permitsPurpose_iff_of_agree hpolicy hp (fun v hb => (hv v hb).1) fun v hb => (hv v hb).2
  refine ⟨q, r, hq, hr, hpurpose, fun hnone p f howner hpolicy hp => ?_,
    fun f hf hpolicy hopt => ?_⟩
  · refine hpurpose p f howner hpolicy hp fun v hv => ?_
    cases hnone.symm.trans hv
  · have howner : f.owner = .location := by
      rw [← mem_locationFlags_iff]
      exact hf
    apply hverdict.isRestricted_eq hverdict'
    simp only [howner, Permits]
    exact permitsLocation_iff_of_agree hpolicy hopt

/-- Enforces purpose 2 only, and exempts another bidder from it. -/
def onlyPurposeTwo : Policy where
  purposes := .ofFn fun p =>
    if p = .two then { exceptions := .ofList ["house"] } else { strictness := .off }
  location := { enforced := false }

/-- An auction of one vendor that has consent for purpose 2 and declares it. -/
def aloneAuction : List Permission :=
  (({} : Policy).enforce
    ({ purposeConsents := .ofList [2], vendorConsents := .ofList [52] } : Consent).signal
    (VendorList.ofDeclarations 1 [{ id := 52, purposes := .ofList [2] }]).source
    [⟨"rubicon", some 52⟩]).1

/-- An auction of the same vendor with another policy, another bidder in front, more consents, a
restriction on another vendor and a longer list. -/
def crowdedAuction : List Permission :=
  (onlyPurposeTwo.enforce
    ({ purposeConsents := .ofList [1, 2], vendorConsents := .ofList [7, 52],
       publisherRestrictions := [⟨2, .notAllowed, .ofList [7]⟩] } : Consent).signal
    (VendorList.ofDeclarations 9 [{ id := 7 }, { id := 52, purposes := .ofList [2, 3] }]).source
    [⟨"house", none⟩, ⟨"rubicon", some 52⟩]).1

/-- The two auctions agree on purpose 2 and on the vendor, and so on the flag of purpose 2. They
differ in the other flags. -/
theorem enforce_flag_eq_of_agree_purposeTwo :
    (∃ q r, aloneAuction[0]? = some q ∧ crowdedAuction[1]? = some r ∧
      q.isRestricted .blockBidderRequest = r.isRestricted .blockBidderRequest) ∧
    aloneAuction.map (fun q => q.restrictions.restricted) =
      [[.blockPixelSync, .blockAnalyticsReport, .removeUserFpd, .removeUserIds, .maskGeo,
        .maskDeviceIp]] ∧
    crowdedAuction.map (fun q => q.restrictions.restricted) = [[], []] := by
  have hi : ([⟨"rubicon", some 52⟩] : List Bidder)[0]? = some ⟨"rubicon", some 52⟩ := rfl
  have hj : ([⟨"house", none⟩, ⟨"rubicon", some 52⟩] : List Bidder)[1]? =
      some ⟨"rubicon", some 52⟩ := rfl
  obtain ⟨q, r, hq, hr, hflag, -⟩ := enforce_flag_eq_of_agree (A := {}) (B := onlyPurposeTwo)
    rfl rfl
    ({ purposeConsents := .ofList [2], vendorConsents := .ofList [52] } : Consent).signal
    ({ purposeConsents := .ofList [1, 2], vendorConsents := .ofList [7, 52],
       publisherRestrictions := [⟨2, .notAllowed, .ofList [7]⟩] } : Consent).signal
    (VendorList.ofDeclarations 1 [{ id := 52, purposes := .ofList [2] }]).source
    (VendorList.ofDeclarations 9 [{ id := 7 }, { id := 52, purposes := .ofList [2, 3] }]).source
    hi hj
  refine ⟨⟨q, r, hq, hr, hflag .two _ rfl ?_ ?_ ?_⟩, by decide, by decide⟩
  · exact ⟨rfl, rfl, by decide, fun first => by cases first⟩
  · exact ⟨by decide, fun _ => by decide, fun first => by cases first⟩
  · intro v hv
    obtain rfl := Option.some.inj hv
    exact ⟨⟨by decide, fun _ => by decide, by decide⟩, by decide, by decide, by decide⟩

end Policy

/-! ## Bidders -/

/-- What an auction makes of its bidders is what it makes of each of them. -/
structure Separable (auction : List Bidder → List Permission) : Prop where
  append : ∀ xs ys, auction (xs ++ ys) = auction xs ++ auction ys
  /-- Bidders taken from any places, in any order and any number of times, keep their permissions.
  -/
  select : ∀ (bidders : List Bidder) (places : List Nat),
    auction (places.filterMap fun i => bidders[i]?) =
      places.filterMap fun i => (auction bidders)[i]?
  batches : ∀ batches : List (List Bidder),
    auction batches.flatten = (batches.map auction).flatten

theorem separable_map (permission : Bidder → Permission) : Separable (List.map permission) where
  append _ _ := List.map_append
  select bidders places := by
    simp only [List.map_filterMap, List.getElem?_map]
  batches _ := List.map_flatten

/-- An auction that gives a verdict on each bidder treats each bidder on its own, since a verdict
determines the permission. -/
theorem separable_of_verdicts {auction : List Bidder → List Permission}
    {cleared : Bidder → Flag → Prop}
    (h : ∀ bidders, List.Forall₂ (fun b q => Verdict b (cleared b) q) bidders (auction bidders)) :
    Separable auction := by
  have hexists : ∀ b, ∃ q, Verdict b (cleared b) q := fun b => by
    obtain ⟨q, -, hq⟩ := exists_getElem?_of_forall₂ (h [b]) (i := 0) rfl
    exact ⟨q, hq⟩
  choose permission hpermission using hexists
  have hunique : Relator.RightUnique fun b q => Verdict b (cleared b) q :=
    fun _ _ _ => Verdict.unique
  have hmap : auction = List.map permission := by
    funext bidders
    refine List.right_unique_forall₂' hunique (h bidders) ?_
    rw [List.forall₂_map_right_iff, List.forall₂_same]
    exact fun b _ => hpermission b
  rw [hmap]
  exact separable_map permission

/-- The bidders of an auction do not influence each other, with or without a request: bidders that
are put together, permuted, repeated, left out or batched have their permissions put together,
permuted, repeated, left out or batched. In particular it does not matter that a purpose pass counts
as checking vendors when every bidder of the list is exempt: what it leaves is what it leaves with
the configured choice. -/
theorem Policy.separable_enforce (policy : Policy) :
    (∀ applies consent source,
      Separable fun bidders => (policy.enforceRequest applies consent source bidders).1) ∧
    (∀ s source, Separable fun bidders => (policy.enforce s source bidders).1) ∧
    ∀ p (purposePolicy : PurposePolicy) s source permissions,
      (purposePass p purposePolicy s source permissions).1 =
        Permission.grantAt p.owned
          ((purposePolicy.selected p s source purposePolicy.checksVendors permissions).map Prod.snd)
          permissions := by
  refine ⟨fun applies consent source => ?_, fun s source => ?_,
    fun p purposePolicy s source permissions => ?_⟩
  · exact separable_of_verdicts (policy.enforceRequest_verdicts applies consent source)
  · exact separable_of_verdicts (policy.enforce_verdicts s source)
  · have hconfigured := purposePolicy.grantAt_selected p s source purposePolicy.checksVendors
      permissions
    rw [hconfigured, purposePass_permissions]
    apply List.map_congr_left
    intro q hq
    rw [PurposePolicy.permits_effectiveChecks hq]

end ConsentGate
