import ConsentGate.Policy
import ConsentGate.Text.Blank

/-!
# Valid policies

A bidder code names somebody only if some character of it is not blank. A policy is valid when every
code in its twelve collections does; otherwise each collection that holds a blank code is reported
once. This is the validation of the specification, section 8, by `validate_bidder_codes` and
`validate_bidder_map`.

Results:

* `Policy.mem_invalidPlaces`: a collection is reported exactly if it holds a blank code.
* `Policy.invalidPlaces_eq_nil_iff`: nothing is reported exactly for a policy without blank codes.
-/

namespace ConsentGate

/-- A collection of bidder codes in a policy. -/
inductive Place where
  /-- The exceptions of a purpose. -/
  | purpose (p : Purpose)
  /-- The exceptions of special feature 1. -/
  | location
  /-- The map from codes to vendor ids. -/
  | bidders
  deriving DecidableEq

namespace Place

/-- Every collection, in the order of their paths as text. -/
def all : List Place :=
  [bidders, purpose .one, purpose .ten, purpose .two, purpose .three, purpose .four, purpose .five,
    purpose .six, purpose .seven, purpose .eight, purpose .nine, location]

theorem mem_all (place : Place) : place ∈ all := by
  cases place with
  | purpose p => cases p <;> decide
  | location => decide
  | bidders => decide

end Place

/-- The path of a collection within the policy. -/
def Place.path : Place → String
  | purpose p => "purposes." ++ p.key ++ ".vendor_exceptions"
  | location => "special_features.sf1.vendor_exceptions"
  | bidders => "bidders"

namespace Policy

/-- The codes of a collection. -/
def codes (policy : Policy) : Place → List String
  | .purpose p => (policy.purposes.get p).exceptions.toList
  | .location => policy.location.exceptions.toList
  | .bidders => policy.bidders.keys

/-- The collections that hold a code of which trimming leaves nothing: those for which
`validate_bidder_codes`, or `validate_bidder_map`, fails. -/
def invalidPlaces (policy : Policy) : List Place :=
  Place.all.filter fun place =>
    (policy.codes place).any fun code => (Text.trim code.toList).isEmpty

/-- No code is blank. -/
def Valid (policy : Policy) : Prop := ∀ place, ∀ code ∈ policy.codes place, ¬ Text.IsBlank code

theorem mem_invalidPlaces {policy : Policy} {place : Place} :
    place ∈ policy.invalidPlaces ↔ ∃ code ∈ policy.codes place, Text.IsBlank code := by
  simp [invalidPlaces, Place.mem_all, Text.trim_eq_nil_iff, Text.IsBlank]

/-- Nothing is reported exactly for a policy without blank codes. -/
theorem invalidPlaces_eq_nil_iff {policy : Policy} : policy.invalidPlaces = [] ↔ policy.Valid := by
  simp only [List.eq_nil_iff_forall_not_mem, mem_invalidPlaces, Valid, not_exists, not_and]

end Policy

end ConsentGate
