import ConsentGate.Policy.Validation

/-!
# Faults

Why settings, a consent or a vendor list cannot be loaded, or a number is no purpose. A fault may
have another one as its cause. These are the variants of `EnforcementError` in the specification,
section 7, each with the reasons for which it arises.
-/

namespace ConsentGate

/-- Why settings cannot be loaded. -/
inductive SettingsFault where
  /-- The text is no settings document, or holds a number out of range. -/
  | unreadable
  /-- A value does not fit its field. -/
  | undecodable
  /-- Some collections of bidder codes hold a blank one. -/
  | invalid (places : List Place)
  deriving DecidableEq

/-- Why a consent cannot be loaded. -/
inductive ConsentFault where
  /-- The text is no consent document. -/
  | malformed
  /-- A publisher restriction is about a purpose that does not exist. -/
  | unknownPurpose (id : PurposeId)
  deriving DecidableEq

/-- Why a vendor list cannot be loaded. -/
inductive VendorListFault where
  /-- The text is no vendor list document. -/
  | malformed
  /-- An entry stands under a key that is not its id. -/
  | mismatched (key id : VendorId)
  deriving DecidableEq

/-- Why a library operation fails (`EnforcementError`). -/
inductive Fault where
  | settings (fault : SettingsFault)
  | consent (fault : ConsentFault)
  | vendorList (fault : VendorListFault)
  /-- A number outside 1 to 10 was given for a purpose. -/
  | unknownPurpose (id : PurposeId)
  deriving DecidableEq

/-- The words for a fault in settings. -/
def SettingsFault.text : SettingsFault → String
  | unreadable => "Failed to build configuration"
  | undecodable => "Failed to deserialize configuration"
  | invalid _ => "Settings validation failed"

/-- The words for a fault in a consent. -/
def ConsentFault.text : ConsentFault → String
  | malformed => "Failed to parse consent JSON"
  | unknownPurpose _ => "Publisher restriction references an unknown purpose"

/-- The words for a fault in a vendor list. -/
def VendorListFault.text : VendorListFault → String
  | malformed => "Failed to parse vendor list JSON"
  | mismatched key id =>
    "Vendor entry '" ++ toString key.toNat ++ "' declares mismatched id " ++ toString id.toNat

namespace Fault

/-- The message for a fault. -/
def message : Fault → String
  | settings fault => "Configuration error: " ++ fault.text
  | consent fault => "Consent error: " ++ fault.text
  | vendorList fault => "Vendor list error: " ++ fault.text
  | unknownPurpose id => "Invalid TCF purpose id: " ++ toString id.toNat

/-- The faults that caused a fault, the nearest first. -/
def causes : Fault → List Fault
  | consent (.unknownPurpose id) => [.unknownPurpose id]
  | _ => []

/-- The collections that a fault reports. -/
def places : Fault → List Place
  | settings (.invalid places) => places
  | _ => []

end Fault

/-- The code under which a blank bidder code is reported at a path. -/
def blankCodeReport (path : String) : String := path ++ ": empty_bidder_code"

/-- The report on a collection within a policy. -/
def Place.report (place : Place) : String := blankCodeReport place.path

/-- The report on a collection within settings. -/
def Place.settingsReport (place : Place) : String := blankCodeReport ("gdpr." ++ place.path)

/-- The purpose with an id, or the fault (`try_from` of `PurposeCode`). -/
def Purpose.ofId (id : PurposeId) : Except Fault Purpose :=
  (Purpose.ofId? id).elim (.error (.unknownPurpose id)) .ok

end ConsentGate
