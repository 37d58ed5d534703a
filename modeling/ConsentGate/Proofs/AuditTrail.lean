import ConsentGate.Consent
import ConsentGate.Proofs.Verdict

/-!
# The audit trail

What the log of an auction says about the permissions that it returns. The counts of a pass are
taken from the lists that it takes apart and puts together, before any flag is clear; they are the
numbers of bidders that the rule of the pass exempts and permits, since every pass sees every bidder
in its place. So a count is also the number of permissions that the auction returns with the flags
of the pass clear.

Results:

* `PurposePolicy.length_split_exempt`, `PurposePolicy.length_selected`: the lists of a pass are as
  long as there are bidders that it exempts and permits.
* `Seats.of_grants`: a pass leaves every bidder in its place.
* `Policy.purposeStep_reports`, `Policy.purposeSteps_reports`: what one purpose and what all report.
* `Policy.enforce_log`: what an auction reports.
-/

namespace ConsentGate

/-! ## Counting by the rule -/

instance (exceptions : OrderedSet String) (code : Option String) :
    Decidable (Exempt exceptions code) :=
  decidable_of_iff _ exempts_iff

instance (strictness : Strictness) (s : Signal) (source : DeclarationSource) (p : Purpose)
    (checksVendors : Bool) (vendor : Option VendorId) :
    Decidable (strictness.Admits s source p checksVendors vendor) :=
  decidable_of_iff _ Strictness.allows_iff

instance (policy : FeaturePolicy) (s : Signal) (code : Option String) :
    Decidable (policy.Permits s code) :=
  inferInstanceAs (Decidable (_ ∨ _ ∨ _))

/-- The three ways in which a purpose permits a bidder. -/
theorem Policy.permitsPurpose_iff {policy : Policy} {s : Signal} {source : DeclarationSource}
    {p : Purpose} {code : Option String} {vendor : Option VendorId} :
    policy.PermitsPurpose s source p code vendor ↔
      Exempt (policy.purposes.get p).exceptions code ∨
      (p = .one ∧ s.purposeOneTreatment = true ∧ policy.treatment = .access) ∨
      (p = .one → s.purposeOneTreatment = true → policy.treatment = .ignore) ∧
        (policy.purposes.get p).strictness.Admits s source p
          (policy.purposes.get p).checksVendors vendor := by
  constructor
  · intro h
    cases h with
    | exempt listed => exact .inl listed
    | unshown first treated rule => exact .inr (.inl ⟨first, treated, rule⟩)
    | evaluated rule admitted => exact .inr (.inr ⟨rule, admitted⟩)
  · rintro (listed | ⟨first, treated, rule⟩ | ⟨rule, admitted⟩)
    · exact .exempt listed
    · exact .unshown first treated rule
    · exact .evaluated rule admitted

instance (policy : Policy) (s : Signal) (source : DeclarationSource) (p : Purpose)
    (code : Option String) (vendor : Option VendorId) :
    Decidable (policy.PermitsPurpose s source p code vendor) :=
  decidable_of_iff _ Policy.permitsPurpose_iff.symm

/-- Lists that are related place by place have as many members that pass a test, if related members
pass it alike. -/
theorem countP_eq_of_forall₂ {α β : Type} {R : α → β → Prop} {as : List α} {bs : List β}
    {test : α → Bool} {test' : β → Bool} (h : List.Forall₂ R as bs)
    (htest : ∀ a b, R a b → test a = test' b) : as.countP test = bs.countP test' := by
  induction h with
  | nil => rfl
  | cons hr _ ih => rw [List.countP_cons, List.countP_cons, ih, htest _ _ hr]

/-! ## The lists of a pass -/

namespace PurposePolicy

variable {policy : PurposePolicy} {p : Purpose} {s : Signal} {source : DeclarationSource}

/-- The positions do not matter to a count. -/
theorem countP_zipIdx (test : Permission → Bool) (permissions : List Permission) :
    (permissions.zipIdx.countP fun e => test e.1) = permissions.countP test := by
  have hmap := List.countP_map (p := test) (f := Prod.fst) (l := permissions.zipIdx)
  rw [List.zipIdx_map_fst] at hmap
  exact hmap.symm

theorem length_split_exempt (permissions : List Permission) :
    (policy.split permissions).1.length =
      permissions.countP fun q => policy.exempts q.bidder := by
  rw [split, List.partition_eq_filter_filter, ← List.countP_eq_length_filter]
  exact countP_zipIdx (fun q => policy.exempts q.bidder) permissions

/-- A pass selects as many permissions as it permits: the exempt ones, all of whom it permits, and
of the others those that its strictness allows. -/
theorem length_selected (checksVendors : Bool) (permissions : List Permission) :
    (policy.selected p s source checksVendors permissions).length =
      permissions.countP (policy.permits p s source checksVendors) := by
  let exempt (e : Permission × Nat) : Bool := policy.exempts e.1.bidder
  let allowed (e : Permission × Nat) : Bool :=
    policy.strictness.allows p s checksVendors e.1.vendor (source.resolve e.1.vendor)
  let permitted (e : Permission × Nat) : Bool := policy.permits p s source checksVendors e.1
  let entries := permissions.zipIdx
  have hexempt : (entries.filter exempt).countP permitted = (entries.filter exempt).length := by
    rw [List.countP_eq_length]
    intro e he
    have hx : exempt e = true := (List.mem_filter.1 he).2
    exact Bool.or_eq_true_iff.2 (.inl hx)
  have hothers : (entries.filter fun e => !exempt e).countP permitted =
      ((entries.filter fun e => !exempt e).filter allowed).length := by
    rw [← List.countP_eq_length_filter]
    apply List.countP_congr
    intro e he
    have hx : exempt e = false := by simpa using (List.mem_filter.1 he).2
    have hpermitted : permitted e = (exempt e || allowed e) := rfl
    rw [hpermitted, hx, Bool.false_or]
  have hselected : policy.selected p s source checksVendors permissions =
      (entries.filter fun e => !exempt e).filter allowed ++ entries.filter exempt := by
    rw [selected, split, List.partition_eq_filter_filter]
    rfl
  calc (policy.selected p s source checksVendors permissions).length
      = (entries.filter exempt).countP permitted +
          (entries.filter fun e => !exempt e).countP permitted := by
        rw [hselected, List.length_append, hexempt, hothers, Nat.add_comm]
    _ = entries.countP permitted := (List.countP_eq_countP_filter_add entries permitted exempt).symm
    _ = permissions.countP (policy.permits p s source checksVendors) := countP_zipIdx _ permissions

/-- A pass counts as checking vendors when every bidder is exempt, and else as configured. -/
theorem effectiveChecks_iff {permissions : List Permission} :
    policy.effectiveChecks permissions = true ↔
      (∀ q ∈ permissions, Exempt policy.exceptions q.bidder) ∨ policy.checksVendors = true := by
  rw [effectiveChecks, Bool.or_eq_true]
  apply or_congr_left
  rw [List.isEmpty_iff, List.eq_nil_iff_forall_not_mem]
  constructor
  · intro hnone q hq
    obtain ⟨i, hi⟩ := List.mem_iff_getElem?.1 hq
    rw [← exempts_iff]
    by_contra hx
    exact hnone (q, i) (mem_split_toEvaluate.2 ⟨hi, Bool.eq_false_iff.2 hx⟩)
  · rintro hall ⟨q, i⟩ hmem
    obtain ⟨hi, hx⟩ := mem_split_toEvaluate.1 hmem
    have hexempt := exempts_iff.2 (hall q (List.mem_of_getElem? hi))
    exact Bool.false_ne_true (hx.symm.trans hexempt)

end PurposePolicy

/-! ## Bidders in their places -/

/-- The permissions of some bidders, in order. -/
def Seats (bidders : List Bidder) (permissions : List Permission) : Prop :=
  List.Forall₂ (fun b q => q.bidder = some b.code ∧ q.vendor = b.vendor) bidders permissions

namespace Seats

variable {bidders : List Bidder} {permissions : List Permission}

theorem ofBidder (restrictions : Restrictions) (bidders : List Bidder) :
    Seats bidders (bidders.map (Permission.ofBidder restrictions)) := by
  rw [Seats, List.forall₂_map_right_iff, List.forall₂_same]
  exact fun _ _ => ⟨rfl, rfl⟩

/-- A pass leaves every bidder in its place. -/
theorem of_grants {r : Rule} {after : List Permission} (h : Seats bidders permissions)
    (hgrants : Grants r permissions after) : Seats bidders after := by
  refine forall₂_comp (fun {b q q'} hq hq' => ?_) h hgrants
  exact ⟨hq'.bidder.trans hq.1, hq'.vendor.trans hq.2⟩

/-- A test that looks at the code and the vendor id alone is passed by as many permissions as
bidders. -/
theorem countP_eq (h : Seats bidders permissions) (test : Option String → Option VendorId → Bool) :
    (permissions.countP fun q => test q.bidder q.vendor) =
      bidders.countP fun b => test (some b.code) b.vendor := by
  refine (countP_eq_of_forall₂ h fun b q hq => ?_).symm
  rw [hq.1, hq.2]

theorem forall_exempt_iff (h : Seats bidders permissions) (exceptions : OrderedSet String) :
    (∀ q ∈ permissions, Exempt exceptions q.bidder) ↔
      ∀ b ∈ bidders, Exempt exceptions (some b.code) := by
  induction h with
  | nil => simp
  | cons hq _ ih => rw [List.forall_mem_cons, List.forall_mem_cons, ih, hq.1]

end Seats

/-! ## Records -/

instance (policy : PurposePolicy) (p : Purpose) (s : Signal) (source : DeclarationSource)
    (code : Option String) (vendor : Option VendorId) :
    Decidable (policy.Permits p s source code vendor) :=
  inferInstanceAs (Decidable (_ ∨ _))

/-- What the record of a purpose pass has to say about an auction and the permissions that it
returns. -/
structure PurposeRecord.Describes (r : PurposeRecord) (policy : Policy) (s : Signal)
    (source : DeclarationSource) (p : Purpose) (bidders : List Bidder)
    (returned : List Permission) : Prop where
  purpose : r.purpose = p
  total : r.total = bidders.length
  exempt : r.exempt =
    bidders.countP fun b => decide (Exempt (policy.purposes.get p).exceptions (some b.code))
  allowed : r.allowed =
    bidders.countP fun b => decide (policy.PermitsPurpose s source p (some b.code) b.vendor)
  exempt_le_allowed : r.exempt ≤ r.allowed
  allowed_le_total : r.allowed ≤ r.total
  /-- Of a purpose that owns flags, as many permissions are returned with these flags clear. -/
  cleared : p.owned ≠ [] →
    r.allowed = returned.countP fun q => decide (∀ f ∈ p.owned, q.isRestricted f = false)
  checksVendors : r.checksVendors = true ↔
    (∀ b ∈ bidders, Exempt (policy.purposes.get p).exceptions (some b.code)) ∨
      (policy.purposes.get p).checksVendors = true

/-- What the record of the special feature pass has to say about an auction and the permissions that
it returns. -/
structure FeatureRecord.Describes (r : FeatureRecord) (policy : Policy) (s : Signal)
    (bidders : List Bidder) (returned : List Permission) : Prop where
  feature : r.feature = preciseGeolocation
  total : r.total = bidders.length
  allowed : r.allowed = bidders.countP fun b => decide (policy.location.Permits s (some b.code))
  allowed_le_total : r.allowed ≤ r.total
  cleared : r.allowed =
    returned.countP fun q => decide (q.isRestricted .maskGeo = false ∧
      q.isRestricted .maskDeviceIp = false)
  enforced : r.enforced = policy.location.enforced
  optedIn : r.optedIn = s.featureOptIn preciseGeolocation

section Records

variable {policy : Policy} {s : Signal} {source : DeclarationSource} {p : Purpose}
  {bidders : List Bidder} {permissions returned : List Permission}

theorem PurposePolicy.exempt_record (purposePolicy : PurposePolicy) (p : Purpose) (s : Signal)
    (source : DeclarationSource) (h : Seats bidders permissions) :
    (purposePolicy.record p s source permissions).exempt =
      bidders.countP fun b => decide (Exempt purposePolicy.exceptions (some b.code)) := by
  rw [record, length_split_exempt, h.countP_eq fun code _ => purposePolicy.exempts code]
  apply List.countP_congr
  intro b _
  rw [PurposePolicy.exempts, exempts_iff, decide_eq_true_iff]

/-- The count of a pass is that of the bidders whom the configured rule permits, although the pass
may count as checking vendors. -/
theorem PurposePolicy.allowed_record (purposePolicy : PurposePolicy) (p : Purpose) (s : Signal)
    (source : DeclarationSource) (h : Seats bidders permissions) :
    (purposePolicy.record p s source permissions).allowed =
      bidders.countP fun b => decide (purposePolicy.Permits p s source (some b.code) b.vendor) := by
  have hconfigured : permissions.countP
      (purposePolicy.permits p s source (purposePolicy.effectiveChecks permissions)) =
      permissions.countP fun q => decide (purposePolicy.Permits p s source q.bidder q.vendor) := by
    apply List.countP_congr
    intro q hq
    rw [permits_effectiveChecks hq, permits_iff, decide_eq_true_iff]
  rw [record, length_selected, hconfigured,
    h.countP_eq fun code vendor => decide (purposePolicy.Permits p s source code vendor)]

/-- The record of a pass describes the auction when the pass permits whom the purpose permits and
each returned permission is a verdict. -/
theorem PurposePolicy.describes_record {purposePolicy : PurposePolicy}
    (h : Seats bidders permissions)
    (hexceptions : purposePolicy.exceptions = (policy.purposes.get p).exceptions)
    (hchecks : purposePolicy.checksVendors = (policy.purposes.get p).checksVendors)
    (hpermits : ∀ code vendor, purposePolicy.Permits p s source code vendor ↔
      policy.PermitsPurpose s source p code vendor)
    (hreturned : List.Forall₂ (fun b q => Verdict b (fun f =>
      policy.Permits s source (some b.code) b.vendor f.owner) q) bidders returned) :
    (purposePolicy.record p s source permissions).Describes policy s source p bidders returned := by
  have hexempt := purposePolicy.exempt_record p s source h
  have hallowed := purposePolicy.allowed_record p s source h
  simp only [hexceptions] at hexempt
  simp only [hpermits] at hallowed
  have htotal : (purposePolicy.record p s source permissions).total = bidders.length :=
    h.length_eq.symm
  refine ⟨rfl, htotal, hexempt, hallowed, ?_, ?_, fun howned => ?_, ?_⟩
  · rw [hexempt, hallowed]
    apply List.countP_mono_left
    intro b _ hb
    exact decide_eq_true (.exempt (of_decide_eq_true hb))
  · rw [hallowed, htotal]
    exact List.countP_le_length
  · rw [hallowed]
    refine countP_eq_of_forall₂ hreturned fun b q hq => ?_
    rw [decide_eq_decide]
    have hflag {f : Flag} (hf : f ∈ p.owned) : q.isRestricted f = false ↔
        policy.PermitsPurpose s source p (some b.code) b.vendor := by
      rw [hq.flags, Purpose.mem_owned_iff.1 hf, Policy.Permits]
    constructor
    · intro hb f hf
      exact (hflag hf).2 hb
    · intro hclear
      obtain ⟨f, hf⟩ := List.exists_mem_of_ne_nil _ howned
      exact (hflag hf).1 (hclear f hf)
  · rw [← hchecks, ← hexceptions, ← h.forall_exempt_iff]
    exact effectiveChecks_iff

theorem FeaturePolicy.describes_record (h : Seats bidders permissions)
    (hreturned : List.Forall₂ (fun b q => Verdict b (fun f =>
      policy.Permits s source (some b.code) b.vendor f.owner) q) bidders returned) :
    ∃ record, (featurePass policy.location s permissions).2 = [.featurePass record] ∧
      record.Describes policy s bidders returned := by
  have htotal : permissions.length = bidders.length := h.length_eq.symm
  have hallowed : permissions.countP
      (policy.location.permits (s.featureOptIn preciseGeolocation)) =
      bidders.countP fun b => decide (policy.location.Permits s (some b.code)) := by
    rw [← h.countP_eq fun code _ => decide (policy.location.Permits s code)]
    apply List.countP_congr
    intro q _
    rw [FeaturePolicy.permits_iff, decide_eq_true_iff]
  refine ⟨_, rfl, rfl, htotal, hallowed, List.countP_le_length, ?_, rfl, rfl⟩
  rw [hallowed]
  refine countP_eq_of_forall₂ hreturned fun b q hq => ?_
  rw [decide_eq_decide, hq.flags, hq.flags]
  exact ⟨fun hb => ⟨hb, hb⟩, fun hb => hb.1⟩

end Records

/-! ## Reports -/

namespace Policy

/-- What a purpose reports in an auction that returns some permissions: the record of its pass,
unless it is purpose 1 and was not shown to the user. Then it may only report that nobody but exempt
bidders is allowed, or report first that the purpose is not enforced and then a pass that reads
`No`. -/
inductive Reports (policy : Policy) (s : Signal) (source : DeclarationSource)
    (bidders : List Bidder) (returned : List Permission) (p : Purpose) : List Event → Prop
  | evaluated {r : PurposeRecord}
    (rule : p = .one → s.purposeOneTreatment = true → policy.treatment = .ignore)
    (strictness : r.strictness = (policy.purposes.get p).strictness)
    (describes : r.Describes policy s source p bidders returned) :
    Reports policy s source bidders returned p [.purposePass r]
  | exemptOnly (first : p = .one) (treated : s.purposeOneTreatment = true)
    (rule : policy.treatment = .noAccess) :
    Reports policy s source bidders returned p [.treatmentExemptOnly]
  | notEnforced {r : PurposeRecord} (first : p = .one) (treated : s.purposeOneTreatment = true)
    (rule : policy.treatment = .access) (strictness : r.strictness.name = "No")
    (describes : r.Describes policy s source p bidders returned) :
    Reports policy s source bidders returned p [.treatmentNotEnforced, .purposePass r]

section Reports

variable {policy : Policy} {s : Signal} {source : DeclarationSource} {bidders : List Bidder}
  {permissions returned : List Permission}

/-- One purpose reports what it has to. -/
theorem purposeStep_reports (p : Purpose) (h : Seats bidders permissions)
    (hreturned : List.Forall₂ (fun b q => Verdict b (fun f =>
      policy.Permits s source (some b.code) b.vendor f.owner) q) bidders returned) :
    policy.Reports s source bidders returned p (policy.purposeStep s source p permissions).2 := by
  have hnormal (hrule : p = .one → s.purposeOneTreatment = true → policy.treatment = .ignore) :
      policy.Reports s source bidders returned p
        (purposePass p (policy.purposes.get p) s source permissions).2 := by
    apply Reports.evaluated hrule rfl
    apply PurposePolicy.describes_record h rfl rfl _ hreturned
    exact fun _ _ => (permitsPurpose_iff_permits hrule).symm
  unfold purposeStep
  split
  · rename_i htreated
    obtain ⟨first, treated⟩ := htreated
    cases ht : policy.treatment with
    | ignore => exact hnormal fun _ _ => ht
    | noAccess => exact .exemptOnly first treated ht
    | access =>
      -- a purpose that is not enforced admits everybody, as the rule does here
      have hpermits (code : Option String) (vendor : Option VendorId) :
          { policy.purposes.get p with strictness := .off }.Permits p s source code vendor ↔
            policy.PermitsPurpose s source p code vendor :=
        ⟨fun _ => .unshown first treated ht, fun _ => .inr .off⟩
      exact .notEnforced first treated ht rfl
        (PurposePolicy.describes_record h rfl rfl hpermits hreturned)
  · rename_i htreated
    exact hnormal fun first treated => absurd ⟨first, treated⟩ htreated

/-- Purposes in a row report one after the other. -/
theorem purposeSteps_reports (ps : List Purpose) (h : Seats bidders permissions)
    (hreturned : List.Forall₂ (fun b q => Verdict b (fun f =>
      policy.Permits s source (some b.code) b.vendor f.owner) q) bidders returned) :
    ∃ parts, (policy.purposeSteps s source ps permissions).2 = parts.flatten ∧
      List.Forall₂ (policy.Reports s source bidders returned) ps parts := by
  induction ps generalizing permissions with
  | nil => exact ⟨[], rfl, .nil⟩
  | cons p ps ih =>
    have hseats := h.of_grants (policy.purposeStep_grants s source p permissions)
    obtain ⟨parts, hparts, hreports⟩ := ih hseats
    refine ⟨_ :: parts, ?_, .cons (purposeStep_reports p h hreturned) hreports⟩
    rw [List.flatten_cons, ← hparts]
    rfl

end Reports

/-- The log of an auction under a policy that is switched on agrees with the permissions that the
auction returns. Each purpose reports in turn, then special feature 1, then every bidder in its
place with the flags that are left; each count is the number of bidders that the rule of the pass
exempts or permits, and so the number of returned permissions whose flags it cleared. -/
theorem enforce_log {policy : Policy} (h : policy.enabled = true) (s : Signal)
    (source : DeclarationSource) (bidders : List Bidder) :
    ∃ returned parts record, (policy.enforce s source bidders).1 = returned ∧
      (policy.enforce s source bidders).2 =
        parts.flatten ++ [.featurePass record] ++ returned.map .outcome ∧
      List.Forall₂ (policy.Reports s source bidders returned) Purpose.all parts ∧
      record.Describes policy s bidders returned ∧
      List.Forall₂ (fun b q => q.bidder = some b.code ∧ q.vendor = b.vendor ∧
        ∀ f, f ∈ q.restrictions.restricted ↔ q.isRestricted f = true) bidders returned := by
  have hverdicts := verdicts_congr (policy.enforce_verdicts s source bidders) fun b f =>
    or_iff_right (by simp [h] : ¬ policy.enabled = false)
  have hstart := Seats.ofBidder .restrictAll bidders
  obtain ⟨parts, hparts, hreports⟩ := purposeSteps_reports Purpose.all hstart hverdicts
  have hpurposes := hstart.of_grants (policy.purposeSteps_grants s source Purpose.all _)
  obtain ⟨record, hrecord, hdescribes⟩ := FeaturePolicy.describes_record hpurposes hverdicts
  refine ⟨_, parts, record, rfl, ?_, hreports, hdescribes, ?_⟩
  · rw [← hparts, ← hrecord, enforce, if_pos h]
  · refine hverdicts.imp fun b q hq => ⟨hq.bidder, hq.vendor, fun f => ?_⟩
    rw [Restrictions.restricted, List.mem_filter, Permission.isRestricted]
    exact and_iff_right f.mem_all

/-- An auction in which purpose 1 was not shown to the user and need not be: one bidder is exempt
from it, another has consent for purpose 2 alone. -/
def unshownAuction (policy : Policy) : List Permission × List Event :=
  policy.enforce
    ({ purposeConsents := .ofList [2], vendorConsents := .ofList [52],
       purposeOneTreatment := true } : Consent).signal
    (VendorList.ofDeclarations 1 [{ id := 52, purposes := .ofList [2] }]).source
    [⟨"house", none⟩, ⟨"rubicon", some 52⟩]

/-- Exempts one bidder from purpose 1, which need not be shown, and does not enforce vendors. -/
def lenientOnOne : Policy where
  treatment := .access
  purposes := .ofFn fun p =>
    if p = .one then { checksVendors := false, exceptions := .ofList ["house"] } else {}

/-- Where purpose 1 is not enforced, the notice comes first and both bidders are allowed, one of
them as exempt. -/
theorem enforce_log_unshown :
    lenientOnOne.enabled = true ∧
      (∃ returned, ∃ parts : List (List Event), ∃ record,
        (unshownAuction lenientOnOne).1 = returned ∧
        (unshownAuction lenientOnOne).2 =
          parts.flatten ++ [.featurePass record] ++ returned.map .outcome ∧
        parts.length = Purpose.all.length ∧ record.total = 2) ∧
      (unshownAuction lenientOnOne).2.take 3 =
        [.treatmentNotEnforced, .purposePass ⟨.one, .off, 2, 2, 1, false⟩,
          .purposePass ⟨.two, .full, 1, 2, 0, true⟩] := by
  have henabled : lenientOnOne.enabled = true := rfl
  obtain ⟨returned, parts, record, hreturned, hlog, hreports, hrecord, -⟩ :=
    enforce_log henabled
      ({ purposeConsents := .ofList [2], vendorConsents := .ofList [52],
         purposeOneTreatment := true } : Consent).signal
      (VendorList.ofDeclarations 1 [{ id := 52, purposes := .ofList [2] }]).source
      [⟨"house", none⟩, ⟨"rubicon", some 52⟩]
  have hlength : parts.length = Purpose.all.length := hreports.length_eq.symm
  have htotal : record.total = 2 := hrecord.total
  refine ⟨henabled, ⟨returned, parts, record, hreturned, hlog, hlength, htotal⟩, ?_⟩
  decide

end Policy

end ConsentGate
