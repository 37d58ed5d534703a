import ConsentGate.Proofs.Rule
import Mathlib.Data.List.Forall2

/-!
# Granting

What a pass does to a list of permissions, as a relation between the list before and the list after.
A rule says which flags a bidder is granted; it sees the code and the vendor id of the bidder and
nothing of its flags. Following a rule keeps every bidder in its place, and leaves a flag set
exactly when it was set and is not granted.

Results:

* `Grants.trans`: following two rules in a row is following their union.
* `Grants.unique`: a rule and the list before determine the list after.
* `PurposePolicy.permits_effectiveChecks`: that a pass counts as checking vendors when every bidder
  is exempt changes no decision.
* `purposePass_grants`, `exemptOnlyPass_grants`, `featurePass_grants`: the rule that each pass
  follows.
-/

namespace ConsentGate

/-- Relations between lists, place by place, compose. -/
theorem forall₂_comp {α β γ : Type} {R : α → β → Prop} {S : β → γ → Prop} {T : α → γ → Prop}
    (h : ∀ {a b c}, R a b → S b c → T a c) {as : List α} {bs : List β} {cs : List γ}
    (hab : List.Forall₂ R as bs) (hbc : List.Forall₂ S bs cs) : List.Forall₂ T as cs := by
  induction hab generalizing cs with
  | nil => cases hbc; exact .nil
  | cons hr _ ih =>
    cases hbc with
    | cons hs hbc => exact .cons (h hr hs) (ih hbc)

/-- Lists that are related place by place have a related entry at each place. -/
theorem exists_getElem?_of_forall₂ {α β : Type} {R : α → β → Prop} {as : List α} {bs : List β}
    (h : List.Forall₂ R as bs) {i : Nat} {a : α} (hi : as[i]? = some a) :
    ∃ b, bs[i]? = some b ∧ R a b := by
  induction h generalizing i with
  | nil => simp at hi
  | cons hr _ ih =>
    cases i with
    | zero =>
      obtain rfl := Option.some.inj hi
      exact ⟨_, rfl, hr⟩
    | succ i => exact ih hi

/-- A value that implies another is false when the other is. -/
theorem eq_false_of_imp {a b : Bool} (h : b = true → a = true) (ha : a = false) : b = false := by
  rw [Bool.eq_false_iff] at ha ⊢
  exact mt h ha

/-! ## Rules -/

/-- Which flags a bidder, known by its code and vendor id, is granted. -/
abbrev Rule := Option String → Option VendorId → Flag → Prop

/-- One permission before and after a rule was followed. -/
structure Permission.Follows (rule : Rule) (before after : Permission) : Prop where
  vendor : after.vendor = before.vendor
  bidder : after.bidder = before.bidder
  flags : ∀ f, after.isRestricted f = true ↔
    before.isRestricted f = true ∧ ¬ rule before.bidder before.vendor f

/-- The permissions of an auction before and after a rule was followed. -/
def Grants (rule : Rule) (before after : List Permission) : Prop :=
  List.Forall₂ (Permission.Follows rule) before after

namespace Permission

theorem Follows.trans {r r' : Rule} {a b c : Permission} (hab : a.Follows r b)
    (hbc : b.Follows r' c) :
    a.Follows (fun code vendor f => r code vendor f ∨ r' code vendor f) c where
  vendor := hbc.vendor.trans hab.vendor
  bidder := hbc.bidder.trans hab.bidder
  flags f := by rw [hbc.flags, hab.flags, hab.bidder, hab.vendor, not_or, and_assoc]

theorem Follows.unique {r : Rule} {a b c : Permission} (hb : a.Follows r b) (hc : a.Follows r c) :
    b = c := by
  apply ext_of_isRestricted (hb.vendor.trans hc.vendor.symm) (hb.bidder.trans hc.bidder.symm)
  intro f
  exact Bool.eq_iff_iff.2 ((hb.flags f).trans (hc.flags f).symm)

/-- Granting flags to an allowed permission follows the rule that grants them. -/
theorem follows_grant {r : Rule} {flags : List Flag} {q : Permission} {allowed : Bool}
    (h : ∀ f, r q.bidder q.vendor f ↔ f ∈ flags ∧ allowed = true) :
    q.Follows r (if allowed then q.grant flags else q) := by
  cases allowed with
  | false => exact ⟨rfl, rfl, fun f => by simp [h]⟩
  | true =>
    refine ⟨rfl, rfl, fun f => ?_⟩
    simp [h, isRestricted, grant, Restrictions.isRestricted_grant]

end Permission

namespace Grants

theorem trans {r r' : Rule} {as bs cs : List Permission} (hab : Grants r as bs)
    (hbc : Grants r' bs cs) :
    Grants (fun code vendor f => r code vendor f ∨ r' code vendor f) as cs :=
  forall₂_comp Permission.Follows.trans hab hbc

theorem unique {r : Rule} {as bs cs : List Permission} (hb : Grants r as bs)
    (hc : Grants r as cs) : bs = cs := by
  have hr : Relator.RightUnique (Permission.Follows r) := fun _ _ _ => Permission.Follows.unique
  exact List.right_unique_forall₂' hr hb hc

/-- Rules that grant the same flags are followed alike. -/
theorem congr {r r' : Rule} {as bs : List Permission} (hg : Grants r as bs)
    (h : ∀ code vendor f, r code vendor f ↔ r' code vendor f) : Grants r' as bs := by
  have hr : r = r' := by
    funext code vendor f
    exact propext (h code vendor f)
  rwa [← hr]

/-- A rule that grants nothing. -/
theorem refl (as : List Permission) : Grants (fun _ _ _ => False) as as :=
  List.forall₂_same.2 fun _ _ => ⟨rfl, rfl, fun _ => by simp⟩

/-- Granting flags to each allowed permission follows the rule that grants them. -/
theorem map {r : Rule} {flags : List Flag} {as : List Permission} {allowed : Permission → Bool}
    (h : ∀ q ∈ as, ∀ f, r q.bidder q.vendor f ↔ f ∈ flags ∧ allowed q = true) :
    Grants r as (as.map fun q => if allowed q then q.grant flags else q) := by
  rw [Grants, List.forall₂_map_right_iff, List.forall₂_same]
  intro q hq
  exact Permission.follows_grant (h q hq)

end Grants

/-! ## Passes -/

/-- That a pass counts as checking vendors when every bidder is exempt changes no decision. -/
theorem PurposePolicy.permits_effectiveChecks {policy : PurposePolicy} {p : Purpose} {s : Signal}
    {source : DeclarationSource} {permissions : List Permission} {q : Permission}
    (hq : q ∈ permissions) :
    policy.permits p s source (policy.effectiveChecks permissions) q =
      policy.permits p s source policy.checksVendors q := by
  by_cases hx : policy.exempts q.bidder = true
  · simp [permits, hx]
  · -- a bidder that is not exempt is left to evaluate, so nothing is overridden
    obtain ⟨i, hi⟩ := List.mem_iff_getElem?.1 hq
    have hmem : (q, i) ∈ (policy.split permissions).2 :=
      mem_split_toEvaluate.2 ⟨hi, Bool.eq_false_iff.2 hx⟩
    have hne : (policy.split permissions).2.isEmpty = false := by
      rw [List.isEmpty_eq_false_iff]
      exact List.ne_nil_of_mem hmem
    rw [effectiveChecks, hne, Bool.false_or]

theorem purposePass_grants (p : Purpose) (policy : PurposePolicy) (s : Signal)
    (source : DeclarationSource) (permissions : List Permission) :
    Grants (fun code vendor f => f.owner = .purpose p ∧ policy.Permits p s source code vendor)
      permissions (purposePass p policy s source permissions).1 := by
  rw [purposePass_permissions]
  apply Grants.map
  intro q hq f
  rw [PurposePolicy.permits_effectiveChecks hq, PurposePolicy.permits_iff, Purpose.mem_owned_iff]

theorem exemptOnlyPass_grants (p : Purpose) (policy : PurposePolicy)
    (permissions : List Permission) :
    Grants (fun code _ f => f.owner = .purpose p ∧ Exempt policy.exceptions code)
      permissions (exemptOnlyPass p policy permissions) := by
  rw [exemptOnlyPass_permissions]
  apply Grants.map
  intro q _ f
  rw [PurposePolicy.exempts, exempts_iff, Purpose.mem_owned_iff]

theorem featurePass_grants (policy : FeaturePolicy) (s : Signal)
    (permissions : List Permission) :
    Grants (fun code _ f => f.owner = .location ∧ policy.Permits s code)
      permissions (featurePass policy s permissions).1 := by
  rw [featurePass_permissions]
  apply Grants.map
  intro q _ f
  rw [FeaturePolicy.permits_iff, mem_locationFlags_iff]

end ConsentGate
