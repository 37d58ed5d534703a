import ConsentGate.Audit
import ConsentGate.Decision

/-!
# Passes

A pass visits every permission of an auction and clears the flags that its purpose, or special
feature 1, owns on each permission that it allows. A purpose pass sets the exempt permissions apart
and evaluates the others; what it allows is granted where it stands, so that the permissions keep
their order. A pass never sets a flag. Purpose passes are `process_type_purpose_strategy` and
`allow_excepted_only` of the specification, section 4.2, and the pass of special feature 1 is
`process_special_feature` of section 4.3.

Results:

* `purposePass_permissions`, `exemptOnlyPass_permissions`, `featurePass_permissions`: a pass maps
  each permission on its own.
-/

namespace ConsentGate

/-! ## Purposes -/

/-- The permissions with their positions: those of exempt bidders, and those to evaluate
(`partition_by_exceptions`). -/
def PurposePolicy.split (policy : PurposePolicy) (permissions : List Permission) :
    List (Permission × Nat) × List (Permission × Nat) :=
  permissions.zipIdx.partition fun e => policy.exempts e.1.bidder

/-- Whether a pass over these permissions counts as checking vendors (`effective_enforce_vendors`):
always when every bidder is exempt, since then nothing is left to check, else as configured. -/
def PurposePolicy.effectiveChecks (policy : PurposePolicy) (permissions : List Permission) : Bool :=
  (policy.split permissions).2.isEmpty || policy.checksVendors

/-- What a purpose pass allows, with the positions: the evaluated permissions that the strictness
allows, then all exempt ones. -/
def PurposePolicy.selected (policy : PurposePolicy) (p : Purpose) (s : Signal)
    (source : DeclarationSource) (checksVendors : Bool) (permissions : List Permission) :
    List (Permission × Nat) :=
  let (exempt, toEvaluate) := policy.split permissions
  Strictness.select
    (fun e =>
      policy.strictness.allows p s checksVendors e.1.vendor (source.resolve e.1.vendor))
    toEvaluate exempt

/-- The counts of a purpose pass. -/
def PurposePolicy.record (policy : PurposePolicy) (p : Purpose) (s : Signal)
    (source : DeclarationSource) (permissions : List Permission) : PurposeRecord :=
  let checksVendors := policy.effectiveChecks permissions
  { purpose := p
    strictness := policy.strictness
    allowed := (policy.selected p s source checksVendors permissions).length
    total := permissions.length
    exempt := (policy.split permissions).1.length
    checksVendors := checksVendors }

/-- One purpose pass (`process_type_purpose_strategy`): the permissions it leaves, and its
record. -/
def purposePass (p : Purpose) (policy : PurposePolicy) (s : Signal) (source : DeclarationSource)
    (permissions : List Permission) : List Permission × List Event :=
  let selected := policy.selected p s source (policy.effectiveChecks permissions) permissions
  (Permission.grantAt p.owned (selected.map Prod.snd) permissions,
    [.purposePass (policy.record p s source permissions)])

/-- A pass that allows exempt bidders only, and evaluates nobody (`allow_excepted_only`). -/
def exemptOnlyPass (p : Purpose) (policy : PurposePolicy) (permissions : List Permission) :
    List Permission :=
  Permission.grantAt p.owned ((policy.split permissions).1.map Prod.snd) permissions

/-- Whether a purpose pass allows a bidder: it is exempt, or the strictness allows its vendor. -/
def PurposePolicy.permits (policy : PurposePolicy) (p : Purpose) (s : Signal)
    (source : DeclarationSource) (checksVendors : Bool) (permission : Permission) : Bool :=
  policy.exempts permission.bidder ||
    policy.strictness.allows p s checksVendors permission.vendor (source.resolve permission.vendor)

theorem PurposePolicy.mem_split_exempt {policy : PurposePolicy} {permissions : List Permission}
    {q : Permission} {i : Nat} :
    (q, i) ∈ (policy.split permissions).1 ↔
      permissions[i]? = some q ∧ policy.exempts q.bidder = true := by
  simp [split, List.partition_eq_filter_filter, List.mem_zipIdx_iff_getElem?]

theorem PurposePolicy.mem_split_toEvaluate {policy : PurposePolicy}
    {permissions : List Permission} {q : Permission} {i : Nat} :
    (q, i) ∈ (policy.split permissions).2 ↔
      permissions[i]? = some q ∧ policy.exempts q.bidder = false := by
  simp [split, List.partition_eq_filter_filter, List.mem_zipIdx_iff_getElem?]

/-- A pass selects exactly the permissions that it allows. -/
theorem PurposePolicy.mem_selected {policy : PurposePolicy} {p : Purpose} {s : Signal}
    {source : DeclarationSource} {checksVendors : Bool} {permissions : List Permission}
    {q : Permission} {i : Nat} :
    (q, i) ∈ policy.selected p s source checksVendors permissions ↔
      permissions[i]? = some q ∧ policy.permits p s source checksVendors q = true := by
  simp only [selected, Strictness.select, List.mem_append, List.mem_filter, mem_split_toEvaluate,
    mem_split_exempt, permits, Bool.or_eq_true]
  cases policy.exempts q.bidder <;> simp

/-- Granting to what a pass selects maps each permission on its own. -/
theorem PurposePolicy.grantAt_selected (policy : PurposePolicy) (p : Purpose) (s : Signal)
    (source : DeclarationSource) (checksVendors : Bool) (permissions : List Permission) :
    Permission.grantAt p.owned
        ((policy.selected p s source checksVendors permissions).map Prod.snd) permissions =
      permissions.map fun q =>
        if policy.permits p s source checksVendors q then q.grant p.owned else q := by
  apply Permission.grantAt_eq_map
  intro i
  simp [PurposePolicy.mem_selected]

/-- A purpose pass maps each permission on its own. -/
theorem purposePass_permissions (p : Purpose) (policy : PurposePolicy) (s : Signal)
    (source : DeclarationSource) (permissions : List Permission) :
    (purposePass p policy s source permissions).1 =
      permissions.map fun q =>
        if policy.permits p s source (policy.effectiveChecks permissions) q then q.grant p.owned
        else q :=
  policy.grantAt_selected p s source _ permissions

/-- A pass for exempt bidders only maps each permission on its own. -/
theorem exemptOnlyPass_permissions (p : Purpose) (policy : PurposePolicy)
    (permissions : List Permission) :
    exemptOnlyPass p policy permissions =
      permissions.map fun q => if policy.exempts q.bidder then q.grant p.owned else q := by
  apply Permission.grantAt_eq_map
  intro i
  simp [PurposePolicy.mem_split_exempt]

/-! ## Special feature 1 -/

/-- Whether the special feature pass allows a bidder. -/
def FeaturePolicy.permits (policy : FeaturePolicy) (optedIn : Bool) (permission : Permission) :
    Bool :=
  !policy.enforced || optedIn || policy.exempts permission.bidder

/-- The pass of special feature 1 (`process_special_feature`): the permissions it leaves, and its
record. -/
def featurePass (policy : FeaturePolicy) (s : Signal) (permissions : List Permission) :
    List Permission × List Event :=
  let optedIn := s.featureOptIn preciseGeolocation
  (permissions.map fun q => if policy.permits optedIn q then q.grant locationFlags else q,
    [.featurePass
      { feature := preciseGeolocation
        allowed := permissions.countP (policy.permits optedIn)
        total := permissions.length
        enforced := policy.enforced
        optedIn := optedIn }])

/-- A special feature pass maps each permission on its own. -/
theorem featurePass_permissions (policy : FeaturePolicy) (s : Signal)
    (permissions : List Permission) :
    (featurePass policy s permissions).1 =
      permissions.map fun q =>
        if policy.permits (s.featureOptIn preciseGeolocation) q then q.grant locationFlags
        else q := rfl

end ConsentGate
