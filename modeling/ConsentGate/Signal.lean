import ConsentGate.Purpose

/-!
# Consent signals

A signal answers what a user has agreed to: a bit for each purpose, vendor and special feature, and
what the publisher has restricted. Enforcement asks nothing else, so a signal is a record of seven
answers and any decoder can supply one. The answers are the queries of `ConsentSignal` in the
specification, section 3, two of which have a default.
-/

namespace ConsentGate

/-- What a publisher imposes on a vendor for a purpose (`RestrictionType`). -/
inductive RestrictionType where
  /-- The vendor may not process data for the purpose. -/
  | notAllowed
  /-- The vendor must rely on consent. -/
  | requireConsent
  /-- The vendor must rely on legitimate interest. -/
  | requireLegitimateInterest
  deriving DecidableEq

namespace RestrictionType

/-- Every restriction type. -/
def all : List RestrictionType := [notAllowed, requireConsent, requireLegitimateInterest]

/-- The word for a restriction type in documents. -/
def key : RestrictionType → String
  | notAllowed => "not_allowed"
  | requireConsent => "require_consent"
  | requireLegitimateInterest => "require_legitimate_interest"

/-- The restriction type with a word. -/
def ofKey? (k : String) : Option RestrictionType := all.find? fun t => t.key = k

theorem ofKey?_key (t : RestrictionType) : ofKey? t.key = some t := by cases t <;> decide

end RestrictionType

/-- The answers of a decoded consent signal (`ConsentSignal`). -/
structure Signal where
  /-- The user consents to a purpose. -/
  purposeConsent : Purpose → Bool
  /-- Legitimate interest was shown to the user for a purpose. -/
  purposeInterest : Purpose → Bool
  /-- The user consents to a vendor. -/
  vendorConsent : VendorId → Bool
  /-- Legitimate interest was shown to the user for a vendor. -/
  vendorInterest : VendorId → Bool
  /-- The user has opted into a special feature. -/
  featureOptIn : FeatureId → Bool
  /-- Purpose 1 was not shown to the user. -/
  purposeOneTreatment : Bool := false
  /-- What the publisher imposes on a vendor for a purpose. -/
  publisherRestriction : Purpose → VendorId → Option RestrictionType := fun _ _ => none

/-- The signal without the two answers that a decoder may leave out. -/
def Signal.minimal (s : Signal) : Signal where
  purposeConsent := s.purposeConsent
  purposeInterest := s.purposeInterest
  vendorConsent := s.vendorConsent
  vendorInterest := s.vendorInterest
  featureOptIn := s.featureOptIn

end ConsentGate
