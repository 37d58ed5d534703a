import ConsentGate.Bidder.Text
import ConsentGate.CommandLine.Command
import ConsentGate.Text.Terminal

/-!
# Faults in arguments

Why some arguments ask for nothing that the program can do, and the report on it. A report is laid
out for a terminal, with colours, and then freed of all commands to one, so that those in an
argument have no effect. The words are those with which `parse` of `Cli` fails.
-/

namespace ConsentGate.CommandLine

/-- Why arguments cannot be used. -/
inductive UsageFault where
  /-- An argument has no place where it stands. -/
  | unexpectedArgument (argument : String)
  /-- A switch was given a value. -/
  | unexpectedValue (value : String) (p : Parameter)
  /-- A word stands where only a command can, and is none. -/
  | unknownCommand (word : String)
  /-- The arguments end before a command. -/
  | missingCommand (command : Command)
  /-- Some parameters that a command needs were not given. -/
  | missingParameters (ps : List Parameter)
  /-- A parameter was given without a value. -/
  | missingValue (p : Parameter)
  /-- A value does not fit its parameter, and why, if there is more to say. -/
  | invalidValue (value : String) (p : Parameter) (reason : Option BidderFault)
  /-- A parameter that can be given once was given again. -/
  | repeated (p : Parameter)
  deriving DecidableEq

/-- A value that cannot be used, in yellow. -/
def shownValue (value : String) : String := Text.styled 33 value

/-- What the program knows, in bold. -/
def shownName (name : String) : String := Text.styled 1 name

/-- The message for a fault in arguments, laid out for a terminal. -/
def UsageFault.message : UsageFault → String
  | unexpectedArgument argument => "unexpected argument '" ++ shownValue argument ++ "' found"
  | unexpectedValue value p =>
    "unexpected value '" ++ shownValue value ++ "' for '" ++ shownName p.display ++
      "' found; no more were expected"
  | unknownCommand word => "unrecognized subcommand '" ++ shownValue word ++ "'"
  | missingCommand command =>
    "'" ++ shownName (" ".intercalate command.words) ++
      "' requires a subcommand but one was not provided"
  | missingParameters ps =>
    "the following required arguments were not provided:" ++
      .join (ps.map fun p => "\n  " ++ shownName p.display)
  | missingValue p =>
    "a value is required for '" ++ shownName p.display ++ "' but none was supplied"
  | invalidValue value p reason =>
    "invalid value '" ++ shownValue value ++ "' for '" ++ shownName p.display ++ "'" ++
      reason.elim "" fun fault => ": " ++ fault.message
  | repeated p => "the argument '" ++ shownName p.display ++ "' cannot be used multiple times"

/-- The report on a fault in arguments. -/
def UsageFault.report (fault : UsageFault) : String :=
  let hint := "For more information, try '" ++ shownName "--help" ++ "'."
  Text.withoutCommands ("error: " ++ fault.message ++ "\n\n" ++ hint ++ "\n")

/-- Why reading the arguments ends without a request. -/
inductive Stop where
  | helpWanted (command : Command)
  | versionWanted
  /-- Nothing was said where a command is needed. -/
  | nothingSaid (command : Command)
  | fault (fault : UsageFault)
  deriving DecidableEq

/-- How a command is called, and what it takes. -/
def Command.guide (command : Command) : String :=
  let commands := command.below.map fun (word, _) => "  " ++ word
  let parameters := command.parameters.map fun p =>
    "  " ++ (p.letter?.elim "    " fun c => "-" ++ .singleton c ++ ", ") ++ p.display
  "\n".intercalate
    (["Usage: " ++ " ".intercalate command.words] ++
      (if commands.isEmpty then [] else ["", "Commands:"] ++ commands) ++
      (if parameters.isEmpty then [] else ["", "Options:"] ++ parameters))

end ConsentGate.CommandLine
