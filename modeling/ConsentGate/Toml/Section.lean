import ConsentGate.Text.Hex
import ConsentGate.Toml.Statement

/-!
# Written settings

Settings are written section by section: a header, then a line for each value, and an empty line
before the next header. A string takes the plainest of four styles that can hold it: double quotes
without any escape, single quotes, triple double quotes, triple single quotes; when none can, it is
written in double quotes with escapes. A string with line breaks takes a triple style, and starts on
a line of its own there.
-/

namespace ConsentGate.Toml

/-- A value to be written. -/
inductive Written where
  | boolean (b : Bool)
  | number (n : Nat)
  | text (s : String)
  | texts (items : List String)
  deriving DecidableEq

/-- A header and the values under it. -/
structure Section where
  header : List String
  entries : List (String × Written)
  deriving DecidableEq

/-! ## Strings -/

/-- The quotes around a string, and whether escapes are read between them. -/
inductive Style where
  | basic
  | literal
  | multilineBasic
  | multilineLiteral
  deriving DecidableEq

/-- The length of the longest run of a character, going on from a run of some length. -/
def longestRun (q : Char) (run : Nat) : List Char → Nat
  | [] => run
  | c :: rest => if c = q then longestRun q (run + 1) rest else max run (longestRun q 0 rest)

/-- A character that only an escape can write, wherever it stands. -/
def needsEscape (c : Char) : Bool := isControl c && c != '\n'

/-- Whether a style holds a text without escapes other than that of a tab. -/
def Style.holds (style : Style) (s : List Char) : Bool :=
  !s.any needsEscape &&
    match style with
    | basic => !s.contains '\\' && !s.contains '"' && !s.contains '\n'
    | literal => !s.contains '\'' && !s.contains '\n'
    | multilineBasic => !s.contains '\\' && longestRun '"' 0 s ≤ 2
    | multilineLiteral => longestRun '\'' 0 s ≤ 2

/-- The style of a string value. -/
def valueStyle (s : List Char) : Style :=
  match [Style.basic, .literal, .multilineBasic, .multilineLiteral].find? (·.holds s) with
  | some style => style
  | none => if s.contains '\n' then .multilineBasic else .basic

/-- The style of a quoted key, which stays on one line. -/
def keyStyle (s : List Char) : Style :=
  match [Style.basic, .literal].find? (·.holds s) with
  | some style => style
  | none => .basic

/-- The hexadecimal digits of a number in upper case, four at least. -/
def upperDigits (n : Nat) : List Char := (Text.hexDigits 4 n).map Char.toUpper

/-- A character other than a quote between double quotes. -/
def escapedChar (multiline : Bool) (c : Char) : List Char :=
  match c with
  | '\x08' => ['\\', 'b']
  | '\t' => ['\\', 't']
  | '\n' => if multiline then ['\n'] else ['\\', 'n']
  | '\x0c' => ['\\', 'f']
  | '\r' => ['\\', 'r']
  | '\\' => ['\\', '\\']
  | c => if isControl c then '\\' :: 'u' :: upperDigits c.toNat else [c]

/-- A string between double quotes, behind a run of quotes. Two quotes in a row may stand between
triple quotes, and none between single ones. -/
def escapedChars (multiline : Bool) (run : Nat) : List Char → List Char
  | [] => []
  | c :: rest =>
    if c = '"' then
      if multiline ∧ run < 2 then '"' :: escapedChars multiline (run + 1) rest
      else '\\' :: '"' :: escapedChars multiline 0 rest
    else escapedChar multiline c ++ escapedChars multiline 0 rest

/-- The characters of a string in a style. -/
def stringChars (style : Style) (s : List Char) : List Char :=
  let start := if s.contains '\n' then ['\n'] else []
  match style with
  | .basic => '"' :: escapedChars false 0 s ++ ['"']
  | .literal => '\'' :: s ++ ['\'']
  | .multilineBasic =>
    List.replicate 3 '"' ++ start ++ escapedChars true 0 s ++ List.replicate 3 '"'
  | .multilineLiteral => List.replicate 3 '\'' ++ start ++ s ++ List.replicate 3 '\''

/-! ## Lines -/

/-- The characters of a key: bare if it can be, quoted otherwise. -/
def keyChars (key : String) : List Char :=
  let s := key.toList
  if s ≠ [] ∧ s.all isBareKeyChar then s else stringChars (keyStyle s) s

/-- The characters of a string value. -/
def textChars (s : String) : List Char := stringChars (valueStyle s.toList) s.toList

/-- The characters of a truth value. -/
def booleanChars (b : Bool) : List Char :=
  if b then ['t', 'r', 'u', 'e'] else ['f', 'a', 'l', 's', 'e']

/-- The characters of a value. -/
def Written.chars : Written → List Char
  | boolean b => booleanChars b
  | number n => Nat.toDigits 10 n
  | text s => textChars s
  | texts items => '[' :: [',', ' '].intercalate (items.map textChars) ++ [']']

/-- The line of a value under a key. -/
def entryChars (entry : String × Written) : List Char :=
  keyChars entry.1 ++ [' ', '=', ' '] ++ entry.2.chars ++ ['\n']

namespace Section

/-- The lines of a section. -/
def chars (s : Section) : List Char :=
  '[' :: ['.'].intercalate (s.header.map keyChars) ++ [']', '\n'] ++ s.entries.flatMap entryChars

/-- The text of some sections. -/
def render (sections : List Section) : String :=
  .ofList (['\n'].intercalate (sections.map chars))

end Section

end ConsentGate.Toml
