import ConsentGate.Audit

/-!
# Roster

Who takes part in an auction: the bidders that are named, with the vendor ids that the policy has
for those that bring none, or every bidder of the policy when nobody is named. These are
`resolve_bidders` and `bidder_vendors`, on the map of the specification, section 8.
-/

namespace ConsentGate.Policy

/-- Every bidder of the policy, by code (`bidder_vendors`). -/
def registered (policy : Policy) : List Bidder :=
  policy.bidders.entries.map fun entry => ⟨entry.1, some entry.2⟩

/-- A bidder with its own vendor id, or else the one that the policy has for its code. -/
def register (policy : Policy) (b : Bidder) : Bidder :=
  { b with vendor := b.vendor.or (policy.bidders.find? b.code) }

/-- The bidders of an auction (`resolve_bidders`). -/
def roster (policy : Policy) (named : List Bidder) : List Bidder :=
  if named = [] then policy.registered else named.map policy.register

/-- What choosing the bidders reports (`resolve_bidders`): each one that is left without a vendor
id. -/
def rosterLog (policy : Policy) (named : List Bidder) : List Event :=
  ((policy.roster named).filter fun b => b.vendor = none).map fun b => .unregisteredBidder b.code

end ConsentGate.Policy
