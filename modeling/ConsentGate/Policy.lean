import ConsentGate.Ordered.Map
import ConsentGate.Purpose

/-!
# Publisher policy

What a publisher has decided: how strictly each purpose is enforced, which bidders are exempt, what
happens when purpose 1 was not shown to the user, and under which vendor id each bidder is
registered. A policy that leaves everything out is the strictest one. It is `GdprConfig` of the
specification, section 8, with the parts `PurposeConfig` of section 3 and `SpecialFeatureConfig` of
section 4.3.
-/

namespace ConsentGate

/-- How strictly a purpose is enforced (`EnforcePurpose`). -/
inductive Strictness where
  /-- Consent bits and vendor declarations are both checked. -/
  | full
  /-- Consent bits are checked, vendor declarations are trusted. -/
  | basic
  /-- Nothing is checked. -/
  | off
  deriving DecidableEq

/-- The word for a strictness in messages. -/
def Strictness.name : Strictness → String
  | .full => "Full"
  | .basic => "Basic"
  | .off => "No"

/-- Every strictness, the strictest first. -/
def Strictness.all : List Strictness := [.full, .basic, .off]

/-- The word for a strictness in documents. -/
def Strictness.key : Strictness → String
  | .full => "full"
  | .basic => "basic"
  | .off => "no"

/-- The strictness with a word. -/
def Strictness.ofKey? (k : String) : Option Strictness := all.find? fun s => s.key = k

theorem Strictness.ofKey?_key (s : Strictness) : ofKey? s.key = some s := by cases s <;> decide

/-- What happens to purpose 1 when the signal says that it was not shown to the user
(`PurposeOneTreatmentInterpretation`). -/
inductive TreatmentRule where
  /-- Purpose 1 is evaluated as usual. -/
  | ignore
  /-- Only exempt bidders are allowed. -/
  | noAccess
  /-- Purpose 1 is not enforced. -/
  | access
  deriving DecidableEq

/-- Every treatment rule. -/
def TreatmentRule.all : List TreatmentRule := [.ignore, .noAccess, .access]

/-- The word for a treatment rule in documents. -/
def TreatmentRule.key : TreatmentRule → String
  | .ignore => "ignore"
  | .noAccess => "no_access_allowed"
  | .access => "access_allowed"

/-- The treatment rule with a word. -/
def TreatmentRule.ofKey? (k : String) : Option TreatmentRule := all.find? fun r => r.key = k

theorem TreatmentRule.ofKey?_key (r : TreatmentRule) : ofKey? r.key = some r := by
  cases r <;> decide

/-- Whether a list of exempt bidder codes holds the code of a bidder (`is_excepted`); a bidder
without code is never exempt. -/
def exempts (exceptions : OrderedSet String) : Option String → Bool
  | none => false
  | some code => exceptions.contains code

/-- The policy for one purpose (`PurposeConfig`). -/
@[ext]
structure PurposePolicy where
  strictness : Strictness := .full
  /-- Whether the bits of the single vendor are checked as well. -/
  checksVendors : Bool := true
  /-- The codes of bidders that are not evaluated. -/
  exceptions : OrderedSet String := ∅
  deriving DecidableEq

instance : Inhabited PurposePolicy := ⟨{}⟩

/-- Whether a bidder is exempt from a purpose. -/
def PurposePolicy.exempts (policy : PurposePolicy) (code : Option String) : Bool :=
  ConsentGate.exempts policy.exceptions code

/-- The policy for a special feature (`SpecialFeatureConfig`). -/
@[ext]
structure FeaturePolicy where
  enforced : Bool := true
  /-- The codes of bidders that are not evaluated. -/
  exceptions : OrderedSet String := ∅
  deriving DecidableEq

instance : Inhabited FeaturePolicy := ⟨{}⟩

/-- Whether a bidder is exempt from a special feature. -/
def FeaturePolicy.exempts (policy : FeaturePolicy) (code : Option String) : Bool :=
  ConsentGate.exempts policy.exceptions code

/-- A publisher's policy (`GdprConfig`). -/
@[ext]
structure Policy where
  /-- When false, every bidder is allowed everything. -/
  enabled : Bool := true
  /-- Whether the regulation applies to a request that does not say. -/
  appliesByDefault : Bool := true
  purposes : PerPurpose PurposePolicy := .ofFn fun _ => {}
  /-- The policy for special feature 1. -/
  location : FeaturePolicy := {}
  treatment : TreatmentRule := .ignore
  /-- The vendor id of each known bidder code. -/
  bidders : OrderedMap String VendorId := ∅
  deriving DecidableEq

instance : Inhabited Policy := ⟨{}⟩

/-- Whether the regulation applies to a request (`gdpr_applies`). -/
def Policy.applies (policy : Policy) (requested : Option Bool) : Bool :=
  requested.getD policy.appliesByDefault

end ConsentGate
