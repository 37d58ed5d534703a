import ConsentGate.Proofs.Granting

/-!
# Verdicts

What enforcement decides about each bidder of an auction. The ten purposes and special feature 1
follow rules that see no flags, every permission starts with all flags set, and each flag has one
owner: so the verdict on a bidder can be read off the policy, the signal and the vendor list without
running anything.

Results:

* `Policy.enforce_clears_iff`: one permission for each bidder, in order, with a flag clear exactly
  when the policy is switched off or the owner of the flag permits the bidder.
* `Policy.enforceRequest_verdicts`: the same for a request, which may need no consent or have none.
-/

namespace ConsentGate

/-! ## Verdicts and rules -/

/-- The permission of a bidder whose clear flags are the given ones. -/
structure Verdict (b : Bidder) (cleared : Flag → Prop) (q : Permission) : Prop where
  vendor : q.vendor = b.vendor
  bidder : q.bidder = some b.code
  flags : ∀ f, q.isRestricted f = false ↔ cleared f

/-- Following a rule from full restriction clears exactly what the rule grants. -/
theorem Grants.verdicts {r : Rule} {bidders : List Bidder} {permissions : List Permission}
    (h : Grants r (bidders.map (Permission.ofBidder .restrictAll)) permissions) :
    List.Forall₂ (fun b q => Verdict b (r (some b.code) b.vendor) q) bidders permissions := by
  rw [Grants, List.forall₂_map_left_iff] at h
  refine h.imp fun b q hq => ⟨hq.vendor, hq.bidder, fun f => ?_⟩
  rw [← not_iff_not, Bool.not_eq_false, hq.flags f]
  simp [Permission.isRestricted, Permission.ofBidder]

/-- Permissions that all bidders get alike. -/
theorem verdicts_ofBidder (restrictions : Restrictions) (bidders : List Bidder) :
    List.Forall₂ (fun b q => Verdict b (fun f => restrictions.isRestricted f = false) q) bidders
      (bidders.map (Permission.ofBidder restrictions)) := by
  rw [List.forall₂_map_right_iff, List.forall₂_same]
  exact fun b _ => ⟨rfl, rfl, fun f => Iff.rfl⟩

/-- Verdicts that clear the same flags of each bidder. -/
theorem verdicts_congr {cleared cleared' : Bidder → Flag → Prop} {bidders : List Bidder}
    {permissions : List Permission}
    (hv : List.Forall₂ (fun b q => Verdict b (cleared b) q) bidders permissions)
    (h : ∀ b f, cleared b f ↔ cleared' b f) :
    List.Forall₂ (fun b q => Verdict b (cleared' b) q) bidders permissions :=
  hv.imp fun b _ hq => ⟨hq.vendor, hq.bidder, fun f => (hq.flags f).trans (h b f)⟩

/-! ## Comparing verdicts -/

/-- Verdicts that clear a flag on the same condition agree on the flag. -/
theorem Verdict.isRestricted_eq {b : Bidder} {cleared cleared' : Flag → Prop}
    {q r : Permission} (hq : Verdict b cleared q) (hr : Verdict b cleared' r) {f : Flag}
    (h : cleared f ↔ cleared' f) : q.isRestricted f = r.isRestricted f := by
  have hclear : q.isRestricted f = false ↔ r.isRestricted f = false := by
    rw [hq.flags, hr.flags, h]
  cases hf : r.isRestricted f with
  | false => exact hclear.2 hf
  | true => exact eq_true_of_ne_false fun hf' => by simp [hclear.1 hf'] at hf

/-- A verdict determines the permission. -/
theorem Verdict.unique {b : Bidder} {cleared : Flag → Prop} {q r : Permission}
    (hq : Verdict b cleared q) (hr : Verdict b cleared r) : q = r := by
  apply Permission.ext_of_isRestricted (hq.vendor.trans hr.vendor.symm)
    (hq.bidder.trans hr.bidder.symm)
  intro f
  exact hq.isRestricted_eq hr Iff.rfl

/-- Of two permissions of one bidder, the second restricts at least what the first restricts. -/
structure Permission.RestrictsAtMost (q r : Permission) : Prop where
  vendor : q.vendor = r.vendor
  bidder : q.bidder = r.bidder
  flags : ∀ f, q.isRestricted f = true → r.isRestricted f = true

theorem Verdict.restrictsAtMost {b : Bidder} {cleared cleared' : Flag → Prop} {q r : Permission}
    (hq : Verdict b cleared q) (hr : Verdict b cleared' r) (h : ∀ f, cleared' f → cleared f) :
    q.RestrictsAtMost r where
  vendor := hq.vendor.trans hr.vendor.symm
  bidder := hq.bidder.trans hr.bidder.symm
  flags f hset := by
    rw [← Bool.not_eq_false, hr.flags f]
    intro hcleared
    have hclear : q.isRestricted f = false := (hq.flags f).2 (h f hcleared)
    exact Bool.false_ne_true (hclear.symm.trans hset)

/-- Verdicts that clear fewer flags of each bidder restrict more. -/
theorem verdicts_restrictsAtMost {cleared cleared' : Bidder → Flag → Prop}
    {bidders : List Bidder} {as bs : List Permission}
    (has : List.Forall₂ (fun b q => Verdict b (cleared b) q) bidders as)
    (hbs : List.Forall₂ (fun b q => Verdict b (cleared' b) q) bidders bs)
    (h : ∀ b f, cleared' b f → cleared b f) :
    List.Forall₂ Permission.RestrictsAtMost as bs :=
  forall₂_comp (fun {_ b _} hq hr => hq.restrictsAtMost hr (h b)) has.flip hbs

namespace Policy

/-! ## The treatment rule -/

section Treatment

variable {policy : Policy} {s : Signal} {source : DeclarationSource} {p : Purpose}
  {code : Option String} {vendor : Option VendorId}

/-- Where the treatment rule does not count, a purpose permits whom its own policy permits. -/
theorem permitsPurpose_iff_permits
    (h : p = .one → s.purposeOneTreatment = true → policy.treatment = .ignore) :
    policy.PermitsPurpose s source p code vendor ↔
      (policy.purposes.get p).Permits p s source code vendor := by
  constructor
  · intro hp
    cases hp with
    | exempt listed => exact .inl listed
    | unshown first treated rule => cases rule.symm.trans (h first treated)
    | evaluated _ admitted => exact .inr admitted
  · rintro (listed | admitted)
    · exact .exempt listed
    · exact .evaluated h admitted

theorem permitsPurpose_iff_exempt (first : p = .one) (treated : s.purposeOneTreatment = true)
    (h : policy.treatment = .noAccess) :
    policy.PermitsPurpose s source p code vendor ↔
      Exempt (policy.purposes.get p).exceptions code := by
  refine ⟨fun hp => ?_, .exempt⟩
  cases hp with
  | exempt listed => exact listed
  | unshown _ _ rule => cases rule.symm.trans h
  | evaluated rule _ => cases (rule first treated).symm.trans h

end Treatment

/-! ## Purposes -/

/-- The pass of a purpose under a policy grants its flags to the bidders that it permits. -/
theorem purposeStep_grants (policy : Policy) (s : Signal) (source : DeclarationSource)
    (p : Purpose) (permissions : List Permission) :
    Grants
      (fun code vendor f => f.owner = .purpose p ∧ policy.PermitsPurpose s source p code vendor)
      permissions (policy.purposeStep s source p permissions).1 := by
  have hnormal (h : p = .one → s.purposeOneTreatment = true → policy.treatment = .ignore) :=
    (purposePass_grants p (policy.purposes.get p) s source permissions).congr fun code vendor f =>
      and_congr_right' (permitsPurpose_iff_permits h).symm
  unfold purposeStep
  split
  · rename_i h
    obtain ⟨first, treated⟩ := h
    cases ht : policy.treatment with
    | ignore => exact hnormal fun _ _ => ht
    | noAccess =>
      exact (exemptOnlyPass_grants p (policy.purposes.get p) permissions).congr fun _ _ _ =>
        and_congr_right' (permitsPurpose_iff_exempt first treated ht).symm
    | access =>
      -- a purpose that is not enforced admits everybody, as the rule does here
      refine (purposePass_grants p { policy.purposes.get p with strictness := .off } s source
        permissions).congr fun _ _ _ => and_congr_right' ⟨fun _ => ?_, fun _ => ?_⟩
      · exact .unshown first treated ht
      · exact .inr .off
  · rename_i h
    exact hnormal fun first treated => absurd ⟨first, treated⟩ h

theorem purposeSteps_grants (policy : Policy) (s : Signal) (source : DeclarationSource)
    (ps : List Purpose) (permissions : List Permission) :
    Grants
      (fun code vendor f =>
        ∃ p ∈ ps, f.owner = .purpose p ∧ policy.PermitsPurpose s source p code vendor)
      permissions (policy.purposeSteps s source ps permissions).1 := by
  induction ps generalizing permissions with
  | nil => exact (Grants.refl permissions).congr fun _ _ _ => by simp
  | cons p ps ih =>
    have h := (policy.purposeStep_grants s source p permissions).trans
      (ih (policy.purposeStep s source p permissions).1)
    exact h.congr fun _ _ _ => by simp

/-! ## Auctions -/

/-- Under a policy that is switched on, special feature 1 passes over what the purposes leave. -/
theorem enforce_permissions {policy : Policy} (h : policy.enabled = true) (s : Signal)
    (source : DeclarationSource) (bidders : List Bidder) :
    (policy.enforce s source bidders).1 =
      (featurePass policy.location s (policy.purposeSteps s source Purpose.all
        (bidders.map (Permission.ofBidder .restrictAll))).1).1 := by
  rw [enforce, if_pos h]

/-- An auction under a policy that is switched on grants each flag by its owner. -/
theorem enforce_grants {policy : Policy} (h : policy.enabled = true) (s : Signal)
    (source : DeclarationSource) (bidders : List Bidder) :
    Grants (fun code vendor f => policy.Permits s source code vendor f.owner)
      (bidders.map (Permission.ofBidder .restrictAll)) (policy.enforce s source bidders).1 := by
  rw [enforce_permissions h]
  have hpurposes := policy.purposeSteps_grants s source Purpose.all
    (bidders.map (Permission.ofBidder .restrictAll))
  refine (hpurposes.trans (featurePass_grants policy.location s _)).congr fun code vendor f => ?_
  cases f.owner <;> simp [Permits, Purpose.mem_all]

theorem enforce_verdicts (policy : Policy) (s : Signal) (source : DeclarationSource)
    (bidders : List Bidder) :
    List.Forall₂
      (fun b q => Verdict b (fun f => policy.enabled = false ∨
        policy.Permits s source (some b.code) b.vendor f.owner) q)
      bidders (policy.enforce s source bidders).1 := by
  by_cases h : policy.enabled = true
  · exact verdicts_congr (enforce_grants h s source bidders).verdicts fun _ _ => by simp [h]
  · rw [enforce, if_neg h]
    exact verdicts_congr (verdicts_ofBidder .allowAll bidders) fun _ _ => by simp [h]

/-- When a flag is clear for a bidder after a request. -/
def ClearsOnRequest (policy : Policy) (applies : Option Bool) (consent : Option Signal)
    (source : DeclarationSource) (b : Bidder) (f : Flag) : Prop :=
  policy.enabled = false ∨ policy.applies applies = false ∨
    ∃ s, consent = some s ∧ policy.Permits s source (some b.code) b.vendor f.owner

theorem enforceRequest_verdicts (policy : Policy) (applies : Option Bool)
    (consent : Option Signal) (source : DeclarationSource) (bidders : List Bidder) :
    List.Forall₂ (fun b q => Verdict b (policy.ClearsOnRequest applies consent source b) q)
      bidders (policy.enforceRequest applies consent source bidders).1 := by
  unfold enforceRequest
  by_cases h : (!policy.enabled || !policy.applies applies) = true
  · rw [if_pos h]
    have hoff : policy.enabled = false ∨ policy.applies applies = false := by simpa using h
    exact verdicts_congr (verdicts_ofBidder .allowAll bidders) fun _ _ => by
      simp [ClearsOnRequest, ← or_assoc, hoff]
  · rw [if_neg h]
    obtain ⟨henabled, happlies⟩ : policy.enabled = true ∧ policy.applies applies = true := by
      simpa using h
    cases consent with
    | none =>
      exact verdicts_congr (verdicts_ofBidder .restrictAll bidders) fun _ _ => by
        simp [ClearsOnRequest, henabled, happlies]
    | some s =>
      exact verdicts_congr (policy.enforce_verdicts s source bidders) fun _ _ => by
        simp [ClearsOnRequest, henabled, happlies]

/-- Enforcement returns one permission for each bidder, in order, with the bidder's code and vendor
id. A flag is clear exactly when the policy is switched off or the owner of the flag permits the
bidder; the configured choice of checking vendors is the one that counts. -/
theorem enforce_clears_iff (policy : Policy) (s : Signal) (source : DeclarationSource)
    (bidders : List Bidder) :
    List.Forall₂
      (fun b q => q.vendor = b.vendor ∧ q.bidder = some b.code ∧
        ∀ f, q.isRestricted f = false ↔
          policy.enabled = false ∨ policy.Permits s source (some b.code) b.vendor f.owner)
      bidders (policy.enforce s source bidders).1 :=
  (policy.enforce_verdicts s source bidders).imp fun _ _ h => ⟨h.vendor, h.bidder, h.flags⟩

end Policy

end ConsentGate
