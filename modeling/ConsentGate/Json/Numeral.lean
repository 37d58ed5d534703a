import ConsentGate.Decimal.Binary64

/-!
# Numerals

A number is held as its digits. Only a numeral without sign, fraction and exponent is a natural
number, whatever the value of the others. A reader that keeps numbers as 64-bit binary values
rejects a numeral beyond the largest one.

Results:

* `Numeral.natural?_ofNat`: what is written for a natural number reads as the number.
-/

namespace ConsentGate

/-- The exponent of a numeral. -/
structure Exponent where
  negative : Bool
  digits : List Char
  deriving DecidableEq

/-- A number as it is written. -/
structure Numeral where
  negative : Bool := false
  /-- The digits before the point. -/
  whole : List Char
  /-- The digits after the point, if there is one. -/
  fraction : Option (List Char) := none
  exponent : Option Exponent := none
  deriving DecidableEq

namespace Numeral

/-- The numeral of a natural number. -/
def ofNat (n : Nat) : Numeral := { whole := Nat.toDigits 10 n }

/-- The natural number of a numeral without sign, fraction and exponent. -/
def natural? (n : Numeral) : Option Nat :=
  if n.negative || n.fraction.isSome || n.exponent.isSome then none
  else some (Nat.ofDigitChars 10 n.whole 0)

/-- What is written for a natural number reads as the number. -/
theorem natural?_ofNat (n : Nat) : natural? (ofNat n) = some n := by
  simp [natural?, ofNat, Nat.ofDigitChars_toDigits]

/-! ## Range

A binary reader keeps as many leading digits as fit into 64 bits and scales by a power of ten that
it has rounded before; so the product of two rounded values decides. -/

/-- The value of a decimal digit. -/
def digitValue (c : Char) : Nat := c.toNat - '0'.toNat

/-- The leading digits that fit into 64 bits, continuing `before`, and the number of the others. -/
def fitting (before : Nat) : List Char → Nat × Nat
  | [] => (before, 0)
  | c :: rest =>
    let next := 10 * before + digitValue c
    if next < UInt64.size then fitting next rest else (before, rest.length + 1)

/-- The digits that are kept, and the power of ten that they are scaled by before the exponent
applies. -/
def significand (n : Numeral) : Nat × Int :=
  let (whole, dropped) := fitting 0 n.whole
  let fraction := n.fraction.getD []
  let (kept, unread) := fitting whole fraction
  (kept, (dropped : Int) - ((fraction.length : Int) - unread))

/-- Whether `digits · 10^power` is beyond the largest 64-bit binary value, each factor and the
product being rounded. -/
def overflows (digits : Nat) (power : Int) : Bool :=
  if digits = 0 ∨ power < 0 then false
  else if power > 308 then true
  else
    match Binary64.nearest? digits 1, Binary64.nearest? (Nat.pow 10 power.toNat) 1 with
    | some a, some b => (Binary64.product? a b).isNone
    | _, _ => true

/-- How many exponent digits are read until the exponent is above the 32-bit range, if it gets
there. -/
def exponentLimit? (before read : Nat) : List Char → Option Nat
  | [] => none
  | c :: rest =>
    let next := 10 * before + digitValue c
    if 2 * next < UInt32.size then exponentLimit? next (read + 1) rest else some (read + 1)

/-- The number of exponent digits after which a numeral is known to be out of range, if it is. -/
def outOfRange? (n : Numeral) : Option Nat :=
  let (digits, power) := n.significand
  match n.exponent with
  | none => if overflows digits power then some 0 else none
  | some e =>
    match exponentLimit? 0 0 e.digits with
    | some read => if digits != 0 && !e.negative then some read else none
    | none =>
      let value : Int := Nat.ofDigitChars 10 e.digits 0
      if overflows digits (if e.negative then power - value else power + value) then
        some e.digits.length
      else none

end Numeral

end ConsentGate
