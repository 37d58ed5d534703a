import ConsentGate.Fault
import ConsentGate.Files

/-!
# Failures of a run

A run fails over a file, the settings, the vendor list or the consent. Every failure belongs to an
area, which its message opens with; in some areas the rest of the message is that of an error of its
own. A failure is a `CliError` of the specification, section 7.
-/

namespace ConsentGate.CommandLine

/-- What a failure is about: the variants of `CliError`. -/
inductive Area where
  | configuration
  | input
  | file
  | json
  | logger
  deriving DecidableEq

/-- The words that open a message. -/
def Area.heading : Area → String
  | configuration => "Configuration error: "
  | input => "Input error: "
  | file => "IO error: "
  | json => "JSON error: "
  | logger => "Logger error: "

/-- Whether the rest of the message is that of an error of its own. -/
def Area.wraps : Area → Bool
  | file | json => true
  | configuration | input | logger => false

/-- A failure as it is reported. -/
structure Failure where
  area : Area
  detail : String
  deriving DecidableEq

namespace Failure

/-- The message of a failure. -/
def message (f : Failure) : String := f.area.heading ++ f.detail

/-- The message of the error that a failure wraps. -/
def source? (f : Failure) : Option String := if f.area.wraps then some f.detail else none

/-- A log can be set up once only. -/
def secondLogger : Failure :=
  ⟨.logger, "attempted to set a logger after the logging system was already initialized"⟩

end Failure

/-- Why a run fails. -/
inductive RunFault where
  /-- A file cannot be read. -/
  | unreadable (fault : ReadFault)
  | settings (fault : SettingsFault)
  | vendorList (path : String) (fault : VendorListFault)
  | consent (path : String) (fault : ConsentFault)
  deriving DecidableEq

/-- The report on a fault. -/
def RunFault.failure : RunFault → Failure
  | unreadable fault => ⟨.file, fault.text⟩
  | settings fault =>
    ⟨.configuration, "Failed to parse and merge config: " ++ (Fault.settings fault).message⟩
  | vendorList path fault =>
    ⟨.input,
      "Failed to load vendor list '" ++ path ++ "': " ++ (Fault.vendorList fault).message⟩
  | consent path fault =>
    ⟨.input, "Failed to load consent '" ++ path ++ "': " ++ (Fault.consent fault).message⟩

end ConsentGate.CommandLine
