import ConsentGate.Node.Layer

/-!
# Overrides from the environment

An environment variable whose name, in lower case, starts with `tcf_broker__` overrides a setting.
The rest of its name is the setting's name, with a dot for each double underscore; its value is a
text. These are `ENVIRONMENT_VARIABLE_PREFIX` and `ENVIRONMENT_VARIABLE_SEPARATOR` of the
specification, section 8.
-/

namespace ConsentGate

/-- An environment variable. -/
structure Variable where
  name : String
  value : String
  deriving DecidableEq

namespace Variable

/-- A letter in lower case, as far as that is an ASCII letter: the capital ASCII letters, and the
sign for kelvin. -/
def lowerChar (c : Char) : Char :=
  if 'A' ≤ c ∧ c ≤ 'Z' then .ofNat (c.toNat + 32) else if c = '\u212A' then 'k' else c

/-- What overriding variables start with, in lower case. -/
def mark : List Char := "tcf_broker__".toList

/-- A text with a dot for each double underscore, from left to right. -/
def dotted : List Char → List Char
  | '_' :: '_' :: rest => '.' :: dotted rest
  | c :: rest => c :: dotted rest
  | [] => []

/-- The name of the setting that a variable overrides. -/
def settingName? (v : Variable) : Option String :=
  let name := v.name.toList.map lowerChar
  if mark.isPrefixOf name then some (.ofList (dotted (name.drop mark.length))) else none

/-- The setting that a variable overrides, with its value. -/
def setting? (v : Variable) : Option (String × Node) :=
  v.settingName?.map fun name => (name, .text v.value)

end Variable

/-- The variable of an environment entry, which has its name before an equals sign. -/
def Variable.ofEntry? (entry : String) : Option Variable :=
  let s := entry.toList
  match s.dropWhile (· ≠ '=') with
  | [] => none
  | _ :: value => some ⟨.ofList (s.takeWhile (· ≠ '=')), .ofList value⟩

/-- The settings that an environment overrides, with their values. -/
def overrides (environment : List Variable) : List (String × Node) :=
  environment.filterMap Variable.setting?

end ConsentGate
