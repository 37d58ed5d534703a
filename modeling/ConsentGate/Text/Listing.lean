import ConsentGate.Ordered.Set
import ConsentGate.Text.Hex
import ConsentGate.Text.Printable

/-!
# Listings

Texts in reports for people stand in double quotes, and what would not show as itself is escaped: a
backslash and a letter for the best known characters, the code point in braces for all others. A set
of texts stands in braces, its members in ascending order.
-/

namespace ConsentGate.Text

/-- The escape of a character by its code point. -/
def codeEscape (c : Char) : List Char :=
  ['\\', 'u', '\x7b'] ++ hexDigits 1 c.toNat ++ ['\x7d']

/-- A character within double quotes. -/
def listedChar (c : Char) : List Char :=
  match c with
  | '\x00' => ['\\', '0']
  | '\t' => ['\\', 't']
  | '\n' => ['\\', 'n']
  | '\r' => ['\\', 'r']
  | '"' => ['\\', '"']
  | '\\' => ['\\', '\\']
  | c => if isPrintable c then [c] else codeEscape c

/-- A text in double quotes. -/
def listed (s : String) : String := .ofList ('"' :: s.toList.flatMap listedChar ++ ['"'])

/-- A set of texts in braces. -/
def listedSet (s : OrderedSet String) : String :=
  "\x7b" ++ ", ".intercalate (s.toList.map listed) ++ "\x7d"

end ConsentGate.Text
