/-!
# Commands and parameters

The program is a small tree of commands. Each command takes some parameters, which an argument names
by a word or by a letter; a parameter either is a switch or has a value. The commands are
`tcfcli config validate` and `tcfcli enforce` of the specification, section 6, as `Cli`, `Commands`
and `ConfigAction` declare them.
-/

namespace ConsentGate.CommandLine

/-- A command, the program itself included. -/
inductive Command where
  | program
  | config
  /-- Checks a settings file. -/
  | validate
  /-- Enforces the settings once. -/
  | enforce
  | help
  deriving DecidableEq

/-- Something that an argument sets. -/
inductive Parameter where
  | file
  | consent
  | vendorList
  | bidder
  | gdprApplies
  | pretty
  | verbose
  | help
  | version
  deriving DecidableEq

namespace Command

/-- The commands below a command, each with its word. -/
def below : Command → List (String × Command)
  | program => [("config", config), ("enforce", enforce), ("help", help)]
  | config => [("validate", validate), ("help", help)]
  | _ => []

/-- The words that lead to a command. -/
def words : Command → List String
  | program => ["tcfcli"]
  | config => ["tcfcli", "config"]
  | validate => ["tcfcli", "config", "validate"]
  | enforce => ["tcfcli", "enforce"]
  | help => ["tcfcli", "help"]

/-- The parameters of a command. -/
def parameters : Command → List Parameter
  | program => [.verbose, .help, .version]
  | config => [.verbose, .help]
  | validate => [.file, .verbose, .help]
  | enforce =>
    [.file, .consent, .vendorList, .bidder, .gdprApplies, .pretty, .verbose, .help]
  | help => []

/-- The command that a word below a command leads to. -/
def step? (command : Command) (word : String) : Option Command := command.below.lookup word

end Command

namespace Parameter

/-- The word that names a parameter, after two dashes. -/
def word : Parameter → String
  | file => "file"
  | consent => "consent"
  | vendorList => "vendor-list"
  | bidder => "bidder"
  | gdprApplies => "gdpr-applies"
  | pretty => "pretty"
  | verbose => "verbose"
  | help => "help"
  | version => "version"

/-- The letter that names a parameter, after one dash. -/
def letter? : Parameter → Option Char
  | file => some 'f'
  | verbose => some 'v'
  | help => some 'h'
  | version => some 'V'
  | _ => none

/-- What the value of a parameter is called; a switch has none. -/
def valueName? : Parameter → Option String
  | file => some "FILE"
  | consent => some "CONSENT"
  | vendorList => some "VENDOR_LIST"
  | bidder => some "BIDDERS"
  | gdprApplies => some "GDPR_APPLIES"
  | _ => none

/-- Whether a parameter has a value. -/
def takesValue (p : Parameter) : Bool := p.valueName?.isSome

/-- How messages show a parameter. -/
def display (p : Parameter) : String :=
  "--" ++ p.word ++ p.valueName?.elim "" fun name => " <" ++ name ++ ">"

end Parameter

namespace Command

/-- The parameter of a command with a word. -/
def named? (command : Command) (word : String) : Option Parameter :=
  command.parameters.find? fun p => p.word = word

/-- The parameter of a command with a letter. -/
def lettered? (command : Command) (letter : Char) : Option Parameter :=
  command.parameters.find? fun p => p.letter? = some letter

end Command

end ConsentGate.CommandLine
