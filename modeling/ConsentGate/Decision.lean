import ConsentGate.Policy
import ConsentGate.Signal
import ConsentGate.VendorList

/-!
# Decisions

Whether one vendor may process data for one purpose. Basic enforcement needs a ground that the user
has left open; full enforcement needs in addition that the vendor declares this ground, and obeys
the publisher: a restriction can forbid the vendor, or bind it to one ground, to which it may switch
only where its declaration is flexible. This is `TypeEnforcementStrategy` of the specification,
section 4.1: `allows` with its three cases, and `allowed_by_type_strategy`.

Results:

* `Strictness.allows_basic_of_full`, `Strictness.allows_off`: each strictness allows what a
  stricter one allows.
-/

namespace ConsentGate

/-- The user's bits leave consent open for a purpose and, where vendors are checked, for the vendor
(`allowed_by_consent`). -/
def Signal.opensConsent (s : Signal) (p : Purpose) (checksVendors : Bool)
    (vendor : Option VendorId) : Bool :=
  s.purposeConsent p && (!checksVendors || vendor.any s.vendorConsent)

/-- The user's bits leave legitimate interest open for a purpose that may rest on it and, where
vendors are checked, for the vendor (`allowed_by_legitimate_interest`). -/
def Signal.opensInterest (s : Signal) (p : Purpose) (checksVendors : Bool)
    (vendor : Option VendorId) : Bool :=
  LegalBasis.legitimateInterest.permittedFor p && s.purposeInterest p &&
    (!checksVendors || vendor.any s.vendorInterest)

/-- The vendor may rely on consent when a publisher requires it: it declares consent, or declares
legitimate interest and is flexible. -/
def Declaration.acceptsConsent (d : Declaration) (p : Purpose) : Bool :=
  d.consent p || (d.flexible p && d.interest p)

/-- The vendor may rely on legitimate interest when a publisher requires it. -/
def Declaration.acceptsInterest (d : Declaration) (p : Purpose) : Bool :=
  d.interest p || (d.flexible p && d.consent p)

/-- Full enforcement (`allowed_by_full_enforcement`): an open ground, declared by the vendor and not
restricted by the publisher. -/
def fullyAllowed (p : Purpose) (s : Signal) (checksVendors : Bool) (vendor : Option VendorId)
    (d : Declaration) : Bool :=
  match vendor.bind (s.publisherRestriction p) with
  | some .notAllowed => false
  | some .requireConsent => d.acceptsConsent p && s.opensConsent p checksVendors vendor
  | some .requireLegitimateInterest =>
    d.acceptsInterest p && s.opensInterest p checksVendors vendor
  | none =>
    (d.consent p && s.opensConsent p checksVendors vendor) ||
      (d.interest p && s.opensInterest p checksVendors vendor)

namespace Strictness

/-- Whether a vendor that is not exempt is allowed a purpose (`allows`). -/
def allows (strictness : Strictness) (p : Purpose) (s : Signal) (checksVendors : Bool)
    (vendor : Option VendorId) (d : Declaration) : Bool :=
  match strictness with
  | .off => true
  | .basic => s.opensConsent p checksVendors vendor || s.opensInterest p checksVendors vendor
  | .full => fullyAllowed p s checksVendors vendor d

@[simp] theorem allows_off (p : Purpose) (s : Signal) (checksVendors : Bool)
    (vendor : Option VendorId) (d : Declaration) :
    off.allows p s checksVendors vendor d = true := rfl

/-- What full enforcement allows, basic enforcement allows. -/
theorem allows_basic_of_full {p : Purpose} {s : Signal} {checksVendors : Bool}
    {vendor : Option VendorId} {d : Declaration}
    (h : full.allows p s checksVendors vendor d = true) :
    basic.allows p s checksVendors vendor d = true := by
  rw [allows, Bool.or_eq_true]
  rw [allows, fullyAllowed] at h
  split at h
  case h_1 => cases h
  case h_2 =>
    -- consent is required, and open
    exact .inl (Bool.and_eq_true_iff.1 h).2
  case h_3 =>
    -- legitimate interest is required, and open
    exact .inr (Bool.and_eq_true_iff.1 h).2
  case h_4 =>
    -- no restriction: one of the two grounds is open
    exact (Bool.or_eq_true_iff.1 h).imp (fun h => (Bool.and_eq_true_iff.1 h).2)
      fun h => (Bool.and_eq_true_iff.1 h).2

/-- The members of `toEvaluate` that are allowed, then all of `exempt`
(`allowed_by_type_strategy`); each list keeps its order. -/
def select {α : Type} (allowed : α → Bool) (toEvaluate exempt : List α) : List α :=
  toEvaluate.filter allowed ++ exempt

end Strictness

end ConsentGate
