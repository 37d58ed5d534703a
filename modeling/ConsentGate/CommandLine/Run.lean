import ConsentGate.CommandLine.Failure
import ConsentGate.CommandLine.Request
import ConsentGate.CommandLine.Summary
import ConsentGate.Consent.Json
import ConsentGate.Enforcement
import ConsentGate.Permission.Json
import ConsentGate.Roster
import ConsentGate.Settings.Loading
import ConsentGate.VendorList.Json

/-!
# Runs

A run reads the settings, the vendor list and the consent, in this order, and ends at the first that
fails. It reports events on the way; those before a failure stay reported. The steps are
`load_and_merge_config`, `load_vendor_list` and `load_consent`, and the runs `validate` and
`run_enforcement`, for the two commands of the specification, section 6.

Results:

* `Run.result_bind`: the result of two steps in a row.
-/

namespace ConsentGate.CommandLine

/-- A step of a run: what it reports, and its result. -/
structure Run (α : Type) where
  log : List Event
  result : Except RunFault α

namespace Run

variable {α β : Type}

/-- The log of a second step, which only happens after a result. -/
def logAfter (result : Except RunFault α) (next : α → Run β) : List Event :=
  match result with
  | .ok a => (next a).log
  | .error _ => []

instance : Monad Run where
  pure a := ⟨[], .ok a⟩
  bind x next := ⟨x.log ++ logAfter x.result next, x.result >>= fun a => (next a).result⟩

theorem result_bind (x : Run α) (next : α → Run β) :
    (x >>= next).result = x.result >>= fun a => (next a).result := rfl

theorem result_pure (a : α) : (pure a : Run α).result = .ok a := rfl

theorem result_map (f : α → β) (x : Run α) : (f <$> x).result = f <$> x.result := rfl

/-- Reports events. -/
def report (log : List Event) : Run Unit := ⟨log, .ok ()⟩

/-- A result or a fault, without a report. -/
def of (result : Except RunFault α) : Run α := ⟨[], result⟩

end Run

/-- The text of a file. -/
def readFile (files : Files) (path : String) : Run String :=
  .of ((files path).mapError .unreadable)

/-- The policy of a settings file (`load_and_merge_config`). -/
def loadPolicy (files : Files) (environment : List Variable) (verbose : Bool) (path : String) :
    Run Policy := do
  let text ← readFile files path
  .report (if verbose then [.loadingFile path, .mergingEnvironment] else [])
  let policy ← Run.of ((Settings.load text environment).mapError .settings)
  .report [Settings.loaded policy]
  return policy

/-- The vendor list of a file (`load_vendor_list`). -/
def loadVendorList (files : Files) (path : String) : Run VendorList := do
  let text ← readFile files path
  let list ← Run.of ((VendorList.ofText text).mapError (.vendorList path))
  .report [list.loaded]
  return list

/-- The consent of a file (`load_consent`). -/
def loadConsent (files : Files) (path : String) : Run Consent := do
  let text ← readFile files path
  Run.of ((Consent.ofText text).mapError (.consent path))

/-- The consent that a request names, if it names one. -/
def loadConsent? (files : Files) : Option String → Run (Option Consent)
  | none => return none
  | some path => return some (← loadConsent files path)

/-- The lines that the check of a settings file prints (`validate`). -/
def validate (files : Files) (environment : List Variable) (verbose : Bool) (path : String) :
    Run (List String) := do
  let policy ← loadPolicy files environment verbose path
  return policy.summary path ++ if verbose then policy.details else []

/-- The text of some permissions. -/
def permissionsText (pretty : Bool) (permissions : List Permission) : String :=
  (permissionsJson permissions).render (if pretty then .indented else .compact)

/-- The permissions of one auction (`run_enforcement`, without writing them). -/
def permissions (files : Files) (environment : List Variable) (verbose : Bool)
    (request : EnforcementRequest) : Run (List Permission) := do
  let policy ← loadPolicy files environment verbose request.file
  let list ← loadVendorList files request.vendorList
  let consent ← loadConsent? files request.consent
  .report (policy.rosterLog request.bidders)
  let outcome := policy.enforceRequest request.gdprApplies (consent.map Consent.signal) list.source
    (policy.roster request.bidders)
  .report outcome.2
  return outcome.1

/-- The text that one enforcement prints (`run_enforcement`). -/
def enforce (files : Files) (environment : List Variable) (verbose : Bool)
    (request : EnforcementRequest) : Run String :=
  permissionsText request.pretty <$> permissions files environment verbose request

/-- The lines that a task prints (`run`). -/
def Task.run (files : Files) (environment : List Variable) (verbose : Bool) :
    Task → Run (List String)
  | .validate path => CommandLine.validate files environment verbose path
  | .enforce request =>
    (fun text => [text]) <$> CommandLine.enforce files environment verbose request

end ConsentGate.CommandLine
