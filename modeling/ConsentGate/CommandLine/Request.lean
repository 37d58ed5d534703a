import ConsentGate.CommandLine.Usage

/-!
# Requests

What the arguments ask for, and how they are read. A value may stand in the argument that names its
parameter or in the next one. Such a next value is looked at only when another parameter is named,
or at the end, so that a fault in it comes after that of an argument without a place. This is
`parse` of `Cli`, and what it gives to `run`.
-/

namespace ConsentGate.CommandLine

/-- One enforcement that is asked for (`EnforceArgs`), with the paths of its files. -/
structure EnforcementRequest where
  file : String
  vendorList : String
  consent : Option String := none
  bidders : List Bidder := []
  gdprApplies : Option Bool := none
  pretty : Bool := false
  deriving DecidableEq

/-- What the program is asked to do. -/
inductive Task where
  | validate (file : String)
  | enforce (request : EnforcementRequest)
  deriving DecidableEq

/-- A task, and whether to be verbose about it. -/
structure Request where
  task : Task
  verbose : Bool
  deriving DecidableEq

/-! ## Values of parameters -/

/-- The parameters of one command that were given so far. -/
structure Given where
  file : Option String := none
  consent : Option String := none
  vendorList : Option String := none
  bidders : List Bidder := []
  gdprApplies : Option Bool := none
  pretty : Bool := false
  verbose : Bool := false
  deriving DecidableEq

/-- Fails when a parameter was given before. -/
def once (p : Parameter) (before : Bool) : Except Stop Unit :=
  if before then .error (.fault (.repeated p)) else .ok ()

/-- The path that a value is. -/
def pathValue (p : Parameter) (value : String) : Except Stop String :=
  if value = "" then .error (.fault (.missingValue p)) else .ok value

/-- The truth value that a value is. -/
def truthValue (p : Parameter) (value : String) : Except Stop Bool :=
  match value with
  | "true" => .ok true
  | "false" => .ok false
  | "" => .error (.fault (.missingValue p))
  | _ => .error (.fault (.invalidValue value p none))

/-- The bidder that a value is. -/
def bidderValue (p : Parameter) (value : String) : Except Stop Bidder :=
  (Bidder.ofText value).mapError fun fault => .fault (.invalidValue value p (some fault))

namespace Given

/-- The parameters with one more value. -/
def set (g : Given) (p : Parameter) (value : String) : Except Stop Given :=
  match p with
  | .file => do
    once p g.file.isSome
    return { g with file := some (← pathValue p value) }
  | .consent => do
    once p g.consent.isSome
    return { g with consent := some (← pathValue p value) }
  | .vendorList => do
    once p g.vendorList.isSome
    return { g with vendorList := some (← pathValue p value) }
  | .gdprApplies => do
    once p g.gdprApplies.isSome
    return { g with gdprApplies := some (← truthValue p value) }
  | .bidder => do return { g with bidders := g.bidders ++ [← bidderValue p value] }
  | _ => .ok g

/-- The parameters of a command with one more switch on; asking for help or for the version ends the
reading. -/
def turnOn (command : Command) (g : Given) (p : Parameter) : Except Stop Given :=
  match p with
  | .pretty => do
    once p g.pretty
    return { g with pretty := true }
  | .verbose => do
    once p g.verbose
    return { g with verbose := true }
  | .help => .error (.helpWanted command)
  | .version => .error .versionWanted
  | _ => .ok g

end Given

/-! ## Reading one argument -/

/-- The arguments of one command as far as they are read. -/
structure Progress where
  given : Given := {}
  /-- The parameter named last whose value is not looked at, with that value once it has come. -/
  pending : Option (Parameter × Option String) := none

namespace Progress

/-- The parameters with the pending value looked at. -/
def settled (r : Progress) : Except Stop Given :=
  match r.pending with
  | none => .ok r.given
  | some (p, none) => .error (.fault (.missingValue p))
  | some (p, some value) => r.given.set p value

/-- Names a parameter whose value is to come. -/
def expect (r : Progress) (p : Parameter) : Except Stop Progress := do
  return { given := ← r.settled, pending := some (p, none) }

/-- Gives a parameter its value. -/
def assign (r : Progress) (p : Parameter) (value : List Char) : Except Stop Progress := do
  return { given := ← (← r.settled).set p (.ofList value) }

/-- Turns a switch on. -/
def turnOn (command : Command) (r : Progress) (p : Parameter) : Except Stop Progress := do
  return { given := ← (← r.settled).turnOn command p }

/-- Whether the next argument can be the value of the parameter named last. -/
def isWaiting (r : Progress) : Bool :=
  match r.pending with
  | some (_, none) => true
  | _ => false

/-- Reads what follows two dashes: the word of a parameter, and its value behind an equals sign. -/
def readWord (command : Command) (r : Progress) (s : List Char) : Except Stop Progress :=
  let word := String.ofList (s.takeWhile (· ≠ '='))
  match command.named? word with
  | none => .error (.fault (.unexpectedArgument ("--" ++ word)))
  | some p =>
    match s.dropWhile (· ≠ '=') with
    | [] => if p.takesValue then r.expect p else r.turnOn command p
    | _ :: value =>
      if p.takesValue then r.assign p value
      else .error (.fault (.unexpectedValue (.ofList value) p))

/-- Reads what follows one dash: letters of switches, and of one parameter with a value, which all
that follows it is, apart from an equals sign. -/
def readLetters (command : Command) (r : Progress) : List Char → Except Stop Progress
  | [] => .ok r
  | c :: rest =>
    match command.lettered? c with
    | none => .error (.fault (.unexpectedArgument (.ofList ['-', c])))
    | some p =>
      if p.takesValue then
        match rest with
        | [] => r.expect p
        | '=' :: value => r.assign p value
        | value => r.assign p value
      else (r.turnOn command p).bind fun next => readLetters command next rest

/-- Reads an argument without dashes. -/
def readPlain (command : Command) (r : Progress) (argument : String) : Except Stop Progress :=
  match r.pending with
  | some (p, none) => .ok { r with pending := some (p, some argument) }
  | _ =>
    .error (.fault
      (if command.below.isEmpty then .unexpectedArgument argument else .unknownCommand argument))

/-- Reads an argument that is neither two dashes alone nor the word for a command below. -/
def readArgument (command : Command) (r : Progress) (argument : String) : Except Stop Progress :=
  match argument.toList with
  | '-' :: '-' :: s => r.readWord command s
  | '-' :: c :: s => r.readLetters command (c :: s)
  | _ => r.readPlain command argument

end Progress

/-! ## Reading all arguments -/

/-- The request that the arguments of a command end with. -/
def conclude (command : Command) (verbose : Bool) (r : Progress) : Except Stop Request := do
  let g ← r.settled
  match command with
  | .validate =>
    match g.file with
    | some file => .ok ⟨.validate file, verbose || g.verbose⟩
    | none => .error (.fault (.missingParameters [.file]))
  | .enforce =>
    match g.file, g.vendorList with
    | some file, some vendorList =>
      .ok
        ⟨.enforce
          { file, vendorList, consent := g.consent, bidders := g.bidders,
            gdprApplies := g.gdprApplies, pretty := g.pretty },
          verbose || g.verbose⟩
    | file, vendorList =>
      .error (.fault (.missingParameters
        ((if file.isNone then [.file] else []) ++ if vendorList.isNone then [.vendorList] else [])))
  | _ => .error (if g.verbose then .fault (.missingCommand command) else .nothingSaid command)

/-- Why reading ends at the word for help, which further words follow. -/
def helpStop (command : Command) : List String → Stop
  | [] => .helpWanted command
  | word :: rest =>
    match command.step? word with
    | some next => helpStop next rest
    | none => .fault (.unknownCommand word)

/-- Why reading ends behind two dashes, where no argument has a place. -/
def dashesFault (command : Command) (argument : String) : UsageFault :=
  if command.below.isEmpty ∨ (command.step? argument).isSome then .unexpectedArgument argument
  else .unknownCommand argument

/-- Reads arguments of a command. -/
def readFrom (command : Command) (verbose : Bool) (r : Progress) :
    List String → Except Stop Request
  | [] => conclude command verbose r
  | argument :: rest =>
    match if r.isWaiting then none else command.step? argument with
    | some .help => .error (helpStop command rest)
    | some next => readFrom next (verbose || r.given.verbose) {} rest
    | none =>
      if argument = "--" then
        match rest with
        | [] => conclude command verbose r
        | extra :: _ => .error (.fault (dashesFault command extra))
      else (r.readArgument command argument).bind fun after => readFrom command verbose after rest

/-- The request that arguments make. -/
def Request.ofArguments (arguments : List String) : Except Stop Request :=
  readFrom .program false {} arguments

end ConsentGate.CommandLine
