import ConsentGate.Consent
import ConsentGate.Proofs.Granting

/-!
# Runs of passes

Any number of passes over the permissions of an auction, in any order, each with a policy, a signal
and a vendor list of its own. A pass follows a rule that sees no flags, so a run follows the union
of the rules of its passes: what is left of a flag depends on which passes were in the run and not
on their order.

Results:

* `Pass.apply_grants`, `Pass.run_grants`: what one pass and what a run grant.
* `Pass.restrictions_accumulate`: a flag stays exactly when no pass of its owner permits the bidder.
-/

namespace ConsentGate

/-- One pass, with everything that it looks at. -/
inductive Pass where
  | purpose (p : Purpose) (policy : PurposePolicy) (s : Signal) (source : DeclarationSource)
  | location (policy : FeaturePolicy) (s : Signal)

namespace Pass

/-- The permissions that a pass returns. -/
def apply : Pass → List Permission → List Permission
  | purpose p policy s source, permissions => (purposePass p policy s source permissions).1
  | location policy s, permissions => (featurePass policy s permissions).1

/-- The permissions after passes in a row. -/
def run (passes : List Pass) (start : List Permission) : List Permission :=
  passes.foldl (fun permissions pass => pass.apply permissions) start

/-- The owner of the flags that a pass may clear. -/
def owner : Pass → Owner
  | purpose p _ _ _ => .purpose p
  | location _ _ => .location

/-- When a pass permits a bidder. -/
def Permits : Pass → Option String → Option VendorId → Prop
  | purpose p policy s source, code, vendor => policy.Permits p s source code vendor
  | location policy s, code, _ => policy.Permits s code

/-- The flags that a pass grants to a bidder. -/
def rule (pass : Pass) : Rule := fun code vendor f =>
  f.owner = pass.owner ∧ pass.Permits code vendor

/-- The flags that some pass of a run grants to a bidder. -/
def runRule (passes : List Pass) : Rule := fun code vendor f =>
  ∃ pass ∈ passes, pass.rule code vendor f

theorem apply_grants (pass : Pass) (permissions : List Permission) :
    Grants pass.rule permissions (pass.apply permissions) := by
  cases pass with
  | purpose p policy s source => exact purposePass_grants p policy s source permissions
  | location policy s => exact featurePass_grants policy s permissions

theorem run_append (passes more : List Pass) (start : List Permission) :
    run (passes ++ more) start = run more (run passes start) :=
  List.foldl_append

/-- A run follows the union of the rules of its passes. -/
theorem run_grants (passes : List Pass) (start : List Permission) :
    Grants (runRule passes) start (run passes start) := by
  induction passes generalizing start with
  | nil => exact (Grants.refl start).congr fun _ _ _ => by simp [runRule]
  | cons pass passes ih =>
    have h := (pass.apply_grants start).trans (ih (pass.apply start))
    exact h.congr fun _ _ _ => by simp [runRule]

/-- A further run sets no flag. -/
theorem run_clear (passes : List Pass) (start : List Permission) :
    List.Forall₂ (fun q r => ∀ f, q.isRestricted f = false → r.isRestricted f = false)
      start (run passes start) := by
  refine (run_grants passes start).imp fun q r h f => eq_false_of_imp ?_
  intro hr
  exact ((h.flags f).1 hr).1

/-- Runs with the same passes, in any order and any number of times, end alike. -/
theorem run_eq_of_mem_iff {passes others : List Pass} (h : ∀ pass, pass ∈ others ↔ pass ∈ passes)
    (start : List Permission) : run others start = run passes start := by
  have hothers : Grants (runRule passes) start (run others start) :=
    (run_grants others start).congr fun _ _ _ => by simp [runRule, h]
  exact hothers.unique (run_grants passes start)

/-- Over any run every permission keeps its place, its vendor id and its code, and a flag is set at
the end exactly when it was set at the start and no pass of its owner permits the bidder. So further
passes set no flag again, the order and the repetition of passes do not count, and every purpose
pass returns all permissions in their order. -/
theorem restrictions_accumulate (passes : List Pass) (start : List Permission) :
    List.Forall₂
        (fun q r => r.vendor = q.vendor ∧ r.bidder = q.bidder ∧
          ∀ f, r.isRestricted f = true ↔ q.isRestricted f = true ∧
            ∀ pass ∈ passes, f.owner = pass.owner → ¬ pass.Permits q.bidder q.vendor)
        start (run passes start) ∧
      (∀ more, List.Forall₂ (fun q r => ∀ f, q.isRestricted f = false → r.isRestricted f = false)
        (run passes start) (run (passes ++ more) start)) ∧
      (∀ others : List Pass, (∀ pass, pass ∈ others ↔ pass ∈ passes) →
        run others start = run passes start) ∧
      ∀ p policy s source, List.Forall₂ (fun q r => r.vendor = q.vendor ∧ r.bidder = q.bidder)
        start (purposePass p policy s source start).1 := by
  refine ⟨?_, fun more => ?_, fun others h => run_eq_of_mem_iff h start,
    fun p policy s source => ?_⟩
  · refine (run_grants passes start).imp fun q r h => ⟨h.vendor, h.bidder, fun f => ?_⟩
    simp only [h.flags f, runRule, rule, not_exists, not_and]
  · rw [run_append]
    exact run_clear more (run passes start)
  · exact (purposePass_grants p policy s source start).imp fun q r h => ⟨h.vendor, h.bidder⟩

/-- Purpose 2 with an exempt bidder and a vendor that has consent, then special feature 1 with an
opt-in. -/
def twoPasses : List Pass :=
  [.purpose .two { strictness := .basic, exceptions := .ofList ["house"] }
      ({ purposeConsents := .ofList [2], vendorConsents := .ofList [52] } : Consent).signal
      fun _ => none,
    .location {} ({ featureOptIns := .ofList [1] } : Consent).signal]

/-- Both passes in the other order, and then again, end like both passes. -/
theorem restrictions_accumulate_twoPasses :
    (∀ pass, pass ∈ twoPasses.reverse ++ twoPasses ↔ pass ∈ twoPasses) ∧
      run (twoPasses.reverse ++ twoPasses)
          [⟨some 52, some "rubicon", .restrictAll⟩, ⟨none, some "house", .restrictAll⟩] =
        run twoPasses
          [⟨some 52, some "rubicon", .restrictAll⟩, ⟨none, some "house", .restrictAll⟩] := by
  have h : ∀ pass, pass ∈ twoPasses.reverse ++ twoPasses ↔ pass ∈ twoPasses := by simp
  exact ⟨h, (restrictions_accumulate twoPasses _).2.2.1 _ h⟩

end Pass

end ConsentGate
