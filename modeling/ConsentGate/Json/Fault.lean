/-!
# Faults in JSON text

Why a text is no JSON document, and where. The place is counted in bytes of the UTF-8 form: a fault
lies just behind the first byte of the character that shows it, its line is counted from 1, and its
column is the number of bytes since the last line break.
-/

namespace ConsentGate.Json

/-- Why a text is no JSON document. -/
inductive Problem where
  | endInArray
  | endInObject
  | endInString
  | endInValue
  | expectedColon
  | expectedCommaOrBracket
  | expectedCommaOrBrace
  | expectedWord
  | expectedValue
  | invalidEscape
  | invalidNumber
  | numberOutOfRange
  | controlCharacter
  | keyNotString
  | loneSurrogate
  | unpairedEscape
  | trailingComma
  | trailingCharacters
  | tooDeep
  deriving DecidableEq

/-- The words for a problem. -/
def Problem.text : Problem → String
  | endInArray => "EOF while parsing a list"
  | endInObject => "EOF while parsing an object"
  | endInString => "EOF while parsing a string"
  | endInValue => "EOF while parsing a value"
  | expectedColon => "expected `:`"
  | expectedCommaOrBracket => "expected `,` or `]`"
  | expectedCommaOrBrace => "expected `,` or `\x7d`"
  | expectedWord => "expected ident"
  | expectedValue => "expected value"
  | invalidEscape => "invalid escape"
  | invalidNumber => "invalid number"
  | numberOutOfRange => "number out of range"
  | controlCharacter => "control character (\\u0000-\\u001F) found while parsing a string"
  | keyNotString => "key must be a string"
  | loneSurrogate => "lone leading surrogate in hex escape"
  | unpairedEscape => "unexpected end of hex escape"
  | trailingComma => "trailing comma"
  | trailingCharacters => "trailing characters"
  | tooDeep => "recursion limit exceeded"

/-- A problem and the place where it shows: so many bytes into the rest of the text. -/
structure Fault where
  problem : Problem
  rest : List Char
  ahead : Nat
  deriving DecidableEq

namespace Fault

/-- A problem with the first character of the rest, or with its end. -/
def atStart (problem : Problem) (rest : List Char) : Fault :=
  ⟨problem, rest, if rest.isEmpty then 0 else 1⟩

/-- The bytes of a text up to a fault. -/
def bytesBefore (fault : Fault) (text : String) : List UInt8 :=
  let bytes := text.toUTF8.toList
  bytes.take (bytes.length - (String.ofList fault.rest).utf8ByteSize + fault.ahead)

/-- The byte of a line break. -/
def lineBreak : UInt8 := 10

/-- The line of a fault. -/
def line (fault : Fault) (text : String) : Nat := 1 + (fault.bytesBefore text).count lineBreak

/-- The column of a fault. -/
def column (fault : Fault) (text : String) : Nat :=
  ((fault.bytesBefore text).reverse.takeWhile (· != lineBreak)).length

/-- The message for a fault in a text. -/
def message (fault : Fault) (text : String) : String :=
  fault.problem.text ++ " at line " ++ toString (fault.line text) ++ " column " ++
    toString (fault.column text)

end Fault

end ConsentGate.Json
