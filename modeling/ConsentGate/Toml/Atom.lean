import ConsentGate.Node
import ConsentGate.Text.Hex
import ConsentGate.Toml.DateTime

/-!
# Atoms

An atom is an unquoted value: a truth value, an integer within 64 bits, a floating-point number or a
date-time. Digits may be grouped by single underscores; a decimal integer part has no leading zero;
an integer in base 2, 8 or 16 has no sign. A date-time is read as its text.
-/

namespace ConsentGate.Toml

/-- The digits of a number without the single underscores between them. -/
def ungroup? (isDigit : Char → Bool) : List Char → Option (List Char)
  | [] => none
  | [c] => if isDigit c then some [c] else none
  | c :: '_' :: rest => if isDigit c then (ungroup? isDigit rest).map (c :: ·) else none
  | c :: rest => if isDigit c then (ungroup? isDigit rest).map (c :: ·) else none

/-- The digits of a decimal integer: one zero, or no leading zero. -/
def decimalDigits? (s : List Char) : Option (List Char) := do
  match ← ungroup? Char.isDigit s with
  | '0' :: _ :: _ => none
  | digits => some digits

/-- The sign that an atom starts with: `true` for minus. -/
def sign : List Char → Bool × List Char
  | '-' :: s => (true, s)
  | '+' :: s => (false, s)
  | s => (false, s)

/-- A digit of base 2. -/
def isBinaryDigit (c : Char) : Bool := c == '0' || c == '1'

/-- A digit of base 8. -/
def isOctalDigit (c : Char) : Bool := '0' ≤ c && c ≤ '7'

/-- A digit of base 16. -/
def isHexDigit (c : Char) : Bool := (Text.hexValue? c).isSome

/-- The number of ungrouped digits in a base up to 16. -/
def inBase (base : Nat) (digits : List Char) : Nat :=
  digits.foldl (fun n c => base * n + (Text.hexValue? c).getD 0) 0

/-- An integer that fits into 64 bits with a sign. -/
def within64? (i : Int) : Option Int :=
  if Int64.minValue.toInt ≤ i ∧ i ≤ Int64.maxValue.toInt then some i else none

/-- The integer that an atom writes. -/
def integer? : List Char → Option Int
  | '0' :: 'x' :: s => (ungroup? isHexDigit s).bind fun digits => within64? (inBase 16 digits)
  | '0' :: 'o' :: s => (ungroup? isOctalDigit s).bind fun digits => within64? (inBase 8 digits)
  | '0' :: 'b' :: s => (ungroup? isBinaryDigit s).bind fun digits => within64? (inBase 2 digits)
  | s => do
    let n : Int := Nat.ofDigitChars 10 (← decimalDigits? (sign s).2) 0
    within64? (if (sign s).1 then -n else n)

/-- Whether a character separates the exponent from the digits before it. -/
def isExponentMark (c : Char) : Bool := c == 'e' || c == 'E'

/-- The exponent behind its mark; an atom without a mark has exponent 0. -/
def exponent? : List Char → Option Int
  | [] => some 0
  | _ :: s => do
    let n : Int := Nat.ofDigitChars 10 (← ungroup? Char.isDigit (sign s).2) 0
    return if (sign s).1 then -n else n

/-- The digits behind the point; an atom without a point has none. -/
def fraction? : List Char → Option (List Char)
  | [] => some []
  | _ :: s => ungroup? Char.isDigit s

/-- The number that an atom with a fraction or an exponent writes. -/
def decimal? (s : List Char) : Option Binary64 := do
  let (negative, s) := sign s
  let mantissa := s.takeWhile (!isExponentMark ·)
  let mark := s.dropWhile (!isExponentMark ·)
  let whole := mantissa.takeWhile (· != '.')
  let point := mantissa.dropWhile (· != '.')
  if mark.isEmpty ∧ point.isEmpty then none
  let digits ← decimalDigits? whole
  let fraction ← fraction? point
  let exponent ← exponent? mark
  Binary64.ofDecimal? negative (Nat.ofDigitChars 10 (digits ++ fraction) 0)
    (exponent - fraction.length)

/-- The floating-point number that an atom writes. -/
def float? (s : List Char) : Option Binary64 :=
  let (negative, body) := sign s
  if body = ['i', 'n', 'f'] then some (.infinite negative)
  else if body = ['n', 'a', 'n'] then some .nan
  else decimal? s

/-- The node that an atom writes. -/
def atom? (s : List Char) : Option Node :=
  if s = ['t', 'r', 'u', 'e'] then some (.boolean true)
  else if s = ['f', 'a', 'l', 's', 'e'] then some (.boolean false)
  else
    ((integer? s).map Node.integer).or
      (((float? s).map Node.float).or ((dateTime? s).map Node.text))

end ConsentGate.Toml
