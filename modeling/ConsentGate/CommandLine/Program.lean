import ConsentGate.CommandLine.Run

/-!
# The program

From arguments, environment and files to what the program prints, what it logs and how it exits:
with 0 after success, 1 after a failed run and 2 when the arguments cannot be used. This is `main`,
with `init_logger` and `run`, as a function of what it reads.
-/

namespace ConsentGate.CommandLine

/-- How the program ends. -/
structure Ending where
  exitCode : UInt8
  /-- What it prints. -/
  output : String := ""
  log : List Event := []
  /-- What it says about a failure. -/
  complaint : String := ""
  deriving DecidableEq

/-- The lines of a text, each ended. -/
def unlines (lines : List String) : String := .join (lines.map (· ++ "\n"))

/-- The name and the version of the program. -/
def versionLine : String := "tcfcli 0.1.0"

/-- How the program ends when the arguments make no request. -/
def Stop.ending : Stop → Ending
  | helpWanted command => { exitCode := 0, output := unlines [command.guide] }
  | versionWanted => { exitCode := 0, output := unlines [versionLine] }
  | nothingSaid command => { exitCode := 2, complaint := unlines [command.guide] }
  | fault f => { exitCode := 2, complaint := f.report }

/-- Whether the log shows an event (the level that `init_logger` sets). -/
def shows (verbose : Bool) (e : Event) : Bool := verbose || e.level != .debug

/-- How the program ends after a run. -/
def Run.ending (verbose : Bool) (run : Run (List String)) : Ending :=
  let log := run.log.filter (shows verbose)
  match run.result with
  | .ok lines => { exitCode := 0, output := unlines lines, log }
  | .error f => { exitCode := 1, log, complaint := unlines ["Error: " ++ f.failure.message] }

/-- How the program ends on some arguments (`main`). -/
def Ending.ofArguments (files : Files) (environment : List Variable) (arguments : List String) :
    Ending :=
  match Request.ofArguments arguments with
  | .error stop => stop.ending
  | .ok request => (request.task.run files environment request.verbose).ending request.verbose

end ConsentGate.CommandLine
