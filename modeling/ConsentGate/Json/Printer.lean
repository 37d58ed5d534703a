import ConsentGate.Json.Basic

/-!
# JSON text

A document is written in one of two layouts: compact, without white space, or indented, with one
field or item to a line and two blanks for each level. Empty arrays and objects are written without
white space in both.
-/

namespace ConsentGate.Json

/-- Where white space goes. -/
structure Layout where
  /-- What stands before an item, a field or a closing bracket at some depth. -/
  lineBreak : Nat → List Char
  /-- What stands between a name and its value. -/
  colon : List Char

/-- The layout without white space. -/
def Layout.compact : Layout := ⟨fun _ => [], [':']⟩

/-- One item to a line, with two blanks for each level. -/
def Layout.indented : Layout := ⟨fun depth => '\n' :: List.replicate (2 * depth) ' ', [':', ' ']⟩

/-- The characters of one piece of a string. -/
def pieceChars : Piece → List Char
  | .plain c => [c]
  | .short e => ['\\', e.letter]
  | .unit code => '\\' :: 'u' :: Text.hexDigits 4 code.toNat

/-- A string with its quotes. -/
def quotedChars (q : Quoted) : List Char := '"' :: q.flatMap pieceChars ++ ['"']

/-- The characters of an exponent. -/
def exponentChars (e : Exponent) : List Char :=
  if e.negative then 'e' :: '-' :: e.digits else 'e' :: e.digits

/-- The characters of a number. -/
def numeralChars (n : Numeral) : List Char :=
  (if n.negative then ['-'] else []) ++ n.whole ++ (n.fraction.elim [] ('.' :: ·)) ++
    n.exponent.elim [] exponentChars

mutual

/-- The characters of a document at some depth. -/
def chars (layout : Layout) (depth : Nat) : Json → List Char
  | .null => ['n', 'u', 'l', 'l']
  | .bool true => ['t', 'r', 'u', 'e']
  | .bool false => ['f', 'a', 'l', 's', 'e']
  | .number n => numeralChars n
  | .string q => quotedChars q
  | .array [] => ['[', ']']
  | .array (item :: items) =>
    '[' :: layout.lineBreak (depth + 1) ++ chars layout (depth + 1) item ++
      itemChars layout (depth + 1) items ++ layout.lineBreak depth ++ [']']
  | .object [] => ['\x7b', '\x7d']
  | .object ((name, value) :: fields) =>
    '\x7b' :: layout.lineBreak (depth + 1) ++ quotedChars name ++ layout.colon ++
      chars layout (depth + 1) value ++ fieldChars layout (depth + 1) fields ++
      layout.lineBreak depth ++ ['\x7d']

/-- The items after the first one, each after a comma. -/
def itemChars (layout : Layout) (depth : Nat) : List Json → List Char
  | [] => []
  | item :: items =>
    ',' :: layout.lineBreak depth ++ chars layout depth item ++ itemChars layout depth items

/-- The fields after the first one, each after a comma. -/
def fieldChars (layout : Layout) (depth : Nat) : List (Quoted × Json) → List Char
  | [] => []
  | (name, value) :: fields =>
    ',' :: layout.lineBreak depth ++ quotedChars name ++ layout.colon ++ chars layout depth value ++
      fieldChars layout depth fields

end

/-- The text of a document in a layout. -/
def render (layout : Layout) (document : Json) : String := .ofList (chars layout 0 document)

end ConsentGate.Json
