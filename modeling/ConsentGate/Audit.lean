import ConsentGate.Permission
import ConsentGate.Policy

/-!
# Audit log

What loading and enforcement report, as values. A log is a list of events in the order in which they
happened; each event has a level and one line of text. The events and their levels are those of the
specification, section 9; a line is what `init_logger` writes behind the time.
-/

namespace ConsentGate

/-- How much an event matters. -/
inductive Level where
  | debug
  | info
  | warn
  deriving DecidableEq

/-- The word for a level. -/
def Level.name : Level → String
  | .debug => "DEBUG"
  | .info => "INFO"
  | .warn => "WARN"

/-- The counts of one purpose pass. -/
structure PurposeRecord where
  purpose : Purpose
  strictness : Strictness
  /-- How many bidders the pass allowed, exempt ones included. -/
  allowed : Nat
  /-- How many bidders the pass saw. -/
  total : Nat
  /-- How many of them were exempt. -/
  exempt : Nat
  /-- Whether the pass counted as checking vendors. -/
  checksVendors : Bool
  deriving DecidableEq

/-- The counts of one special feature pass. -/
structure FeatureRecord where
  feature : FeatureId
  allowed : Nat
  total : Nat
  enforced : Bool
  optedIn : Bool
  deriving DecidableEq

/-- One reported event. -/
inductive Event where
  /-- The policy is switched off, so every bidder is allowed everything. -/
  | enforcementDisabled (bidders : Nat)
  /-- The regulation does not apply to the request. -/
  | notApplicable (bidders : Nat)
  /-- The regulation applies, but the request has no consent. -/
  | consentMissing (bidders : Nat)
  /-- Purpose 1 was not shown; only exempt bidders are allowed. -/
  | treatmentExemptOnly
  /-- Purpose 1 was not shown and is not enforced. -/
  | treatmentNotEnforced
  | purposePass (record : PurposeRecord)
  | featurePass (record : FeatureRecord)
  /-- What is left of a bidder's restrictions. -/
  | outcome (permission : Permission)
  | settingsLoaded (enabled : Bool) (bidders : Nat)
  | vendorListLoaded (version policyVersion : UInt32) (vendors : Nat)
  /-- A settings file is about to be read. -/
  | loadingFile (path : String)
  /-- Environment variables are about to be merged. -/
  | mergingEnvironment
  /-- A bidder has no vendor id, and the settings know none. -/
  | unregisteredBidder (code : String)
  deriving DecidableEq

/-- `true` or `false`. -/
def boolText (b : Bool) : String := if b then "true" else "false"

/-- An optional vendor id in a message. -/
def vendorText : Option VendorId → String
  | none => "None"
  | some v => "Some(" ++ toString v.toNat ++ ")"

/-- A list of words in a message. -/
def listText (words : List String) : String := "[" ++ ", ".intercalate words ++ "]"

/-- The line of a purpose pass. -/
def PurposeRecord.text (r : PurposeRecord) : String :=
  r.purpose.display ++ ": " ++ r.strictness.name ++ " enforcement allowed " ++ toString r.allowed ++
    " of " ++ toString r.total ++ " vendors (" ++ toString r.exempt ++
    " excepted, enforce_vendors=" ++ boolText r.checksVendors ++ ")"

/-- The line of a special feature pass. -/
def FeatureRecord.text (r : FeatureRecord) : String :=
  "special feature " ++ toString r.feature.toNat ++ ": allowed " ++ toString r.allowed ++ " of " ++
    toString r.total ++ " vendors (enforce=" ++ boolText r.enforced ++ ", opted_in=" ++
    boolText r.optedIn ++ ")"

namespace Event

/-- The level of an event. -/
def level : Event → Level
  | consentMissing _ | unregisteredBidder _ => .warn
  | settingsLoaded .. | vendorListLoaded .. | loadingFile _ | mergingEnvironment => .info
  | enforcementDisabled _ | notApplicable _ | treatmentExemptOnly | treatmentNotEnforced
  | purposePass _ | featurePass _ | outcome _ => .debug

/-- The text of an event. -/
def text : Event → String
  | enforcementDisabled n => "GDPR enforcement disabled, allowing " ++ toString n ++ " bidders"
  | notApplicable n => "GDPR not enforced for this request, allowing " ++ toString n ++ " bidders"
  | consentMissing n =>
    "GDPR applies but no consent signal was supplied, restricting " ++ toString n ++ " bidders"
  | treatmentExemptOnly => "purpose one treatment: only excepted vendors allowed"
  | treatmentNotEnforced => "purpose one treatment: purpose 1 not enforced"
  | purposePass record => record.text
  | featurePass record => record.text
  | outcome p =>
    "GDPR enforcement: bidder=" ++ p.bidder.getD "-" ++ " vendor_id=" ++ vendorText p.vendor ++
      " restricted=" ++ listText (p.restrictions.restricted.map Flag.name)
  | settingsLoaded enabled n =>
    "Loaded settings: GDPR enforcement " ++ (if enabled then "enabled" else "disabled") ++ ", " ++
      toString n ++ " bidders mapped"
  | vendorListLoaded version policyVersion n =>
    "Loaded vendor list version " ++ toString version.toNat ++ " (policy " ++
      toString policyVersion.toNat ++ ") with " ++ toString n ++ " vendors"
  | loadingFile path => "Loading config from: " ++ path
  | mergingEnvironment => "Environment variables with TCF_BROKER__ prefix will be merged"
  | unregisteredBidder code => "Bidder '" ++ code ++ "' has no GVL vendor id"

/-- The line that a log shows for an event. -/
def line (e : Event) : String := e.level.name ++ " " ++ e.text

end Event

end ConsentGate
