import ConsentGate.Restriction

/-!
# Bidders and permissions

A bidder takes part in an auction under a code, and may be registered under a vendor id. Its
permission says which restrictions the auction leaves on it. They are `BidderVendor` of the
specification, section 4.4, and `VendorPermission` of section 3. A pass holds references to the
permissions that it selects; here it holds their positions.

Results:

* `Permission.ext_of_isRestricted`: a permission is determined by whose it is and by the seven
  answers.
* `Permission.grantAt_eq_map`: granting at the positions of the allowed permissions is granting to
  each allowed one.
-/

namespace ConsentGate

/-- A candidate bidder (`BidderVendor`). -/
structure Bidder where
  code : String
  vendor : Option VendorId := none
  deriving DecidableEq

/-- The restrictions on one bidder in one auction (`VendorPermission`). -/
structure Permission where
  vendor : Option VendorId
  bidder : Option String
  restrictions : Restrictions := .restrictAll
  deriving DecidableEq

namespace Permission

/-- The permission of a bidder under given restrictions (`permissions_with`, for one bidder). -/
def ofBidder (restrictions : Restrictions) (b : Bidder) : Permission :=
  ⟨b.vendor, some b.code, restrictions⟩

/-- The permission with the given flags clear. -/
def grant (p : Permission) (flags : List Flag) : Permission :=
  { p with restrictions := p.restrictions.grant flags }

/-- The permissions with the given flags clear at some positions. -/
def grantAt (flags : List Flag) (positions : List Nat) (permissions : List Permission) :
    List Permission :=
  positions.foldl (fun permissions i => permissions.modify i fun p => p.grant flags) permissions

/-- Whether a flag is set. -/
def isRestricted (p : Permission) (f : Flag) : Bool := p.restrictions.isRestricted f

/-- A permission is determined by whose it is and by the seven answers. -/
theorem ext_of_isRestricted {p q : Permission} (hvendor : p.vendor = q.vendor)
    (hbidder : p.bidder = q.bidder) (h : ∀ f, p.isRestricted f = q.isRestricted f) : p = q := by
  obtain ⟨vendor, bidder, r⟩ := p
  obtain ⟨vendor', bidder', s⟩ := q
  obtain rfl : vendor = vendor' := hvendor
  obtain rfl : bidder = bidder' := hbidder
  obtain rfl : r = s := Restrictions.ext_of_isRestricted h
  rfl

/-- Granting flags a second time changes nothing. -/
theorem grant_grant_self (p : Permission) (flags : List Flag) :
    (p.grant flags).grant flags = p.grant flags := by
  refine ext_of_isRestricted rfl rfl fun f => ?_
  simp [isRestricted, grant, Restrictions.isRestricted_grant]

theorem getElem?_grantAt (flags : List Flag) (positions : List Nat)
    (permissions : List Permission) (i : Nat) :
    (grantAt flags positions permissions)[i]? =
      if i ∈ positions then permissions[i]?.map fun p => p.grant flags else permissions[i]? := by
  unfold grantAt
  induction positions generalizing permissions with
  | nil => simp
  | cons j positions ih =>
    rw [List.foldl_cons, ih, List.getElem?_modify]
    by_cases hj : j = i
    · subst hj
      cases permissions[j]? <;> simp [grant_grant_self]
    · have hi : i ≠ j := fun h => hj h.symm
      simp [hj, hi]

/-- Granting at the positions of the allowed permissions is granting to each allowed one. -/
theorem grantAt_eq_map {flags : List Flag} {positions : List Nat} {permissions : List Permission}
    {allowed : Permission → Bool}
    (h : ∀ i, i ∈ positions ↔ ∃ p, permissions[i]? = some p ∧ allowed p = true) :
    grantAt flags positions permissions =
      permissions.map fun p => if allowed p then p.grant flags else p := by
  apply List.ext_getElem?
  intro i
  rw [getElem?_grantAt, List.getElem?_map]
  cases hp : permissions[i]? with
  | none => simp
  | some p =>
    have hi : i ∈ positions ↔ allowed p = true := by simp [h, hp]
    by_cases ha : allowed p = true <;> simp [hi, ha]

end Permission

end ConsentGate
