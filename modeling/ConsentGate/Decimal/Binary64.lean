/-!
# Binary floating-point numbers

The values of the 64-bit binary format, in exact arithmetic: a finite value is `m · 2^q` with
`m < 2^53` and `-1074 ≤ q ≤ 971`. A decimal is read as the nearest such value, a tie going to the
even mantissa; a decimal beyond the largest value has no reading.
-/

namespace ConsentGate

/-- A value of the 64-bit binary format. -/
inductive Binary64 where
  | nan
  | infinite (negative : Bool)
  /-- The value `± mantissa · 2 ^ exponent`. -/
  | finite (negative : Bool) (mantissa : Nat) (exponent : Int)
  deriving DecidableEq

namespace Binary64

/-- The quotient of two numbers, rounded to the nearest integer, a tie to the even one. -/
def roundQuotient (num den : Nat) : Nat :=
  let quotient := num / den
  let twice := 2 * (num % den)
  if twice < den then quotient
  else if den < twice then quotient + 1
  else quotient + quotient % 2

/-- The pair `(num, den)` with its quotient divided by `2 ^ q`. -/
def scale (num den : Nat) (q : Int) : Nat × Nat :=
  if q < 0 then (num * Nat.pow 2 (-q).toNat, den) else (num, den * Nat.pow 2 q.toNat)

/-- The largest `e` with `2 ^ e ≤ num / den`, for positive `num` and `den`. -/
def floorLog2 (num den : Nat) : Int :=
  let e : Int := (num.log2 : Int) - den.log2
  let (n, d) := scale num den e
  if n < d then e - 1 else e

/-- The mantissa and exponent of the value nearest to a positive quotient; none beyond the largest
value. -/
def nearest? (num den : Nat) : Option (Nat × Int) :=
  let q := max (floorLog2 num den - 52) (-1074)
  let (n, d) := scale num den q
  let m := roundQuotient n d
  let (m, q) := if m = Nat.pow 2 53 then (Nat.pow 2 52, q + 1) else (m, q)
  if q ≤ 971 then some (m, q) else none

/-- The mantissa and exponent of the value nearest to the product of two positive values; none
beyond the largest value. -/
def product? (a b : Nat × Int) : Option (Nat × Int) :=
  let (num, den) := scale (a.1 * b.1) 1 (-(a.2 + b.2))
  nearest? num den

/-- The value nearest to `± digits · 10 ^ exponent`. Decimals with so large or so small an exponent
that they must overflow, or vanish, are settled without computing the power. -/
def ofDecimal? (negative : Bool) (digits : Nat) (exponent : Int) : Option Binary64 :=
  if digits = 0 then some (finite negative 0 (-1074))
  else
    let magnitude := ((Nat.toDigits 10 digits).length : Int) + exponent
    if magnitude > 400 then none
    else if magnitude < -400 then some (finite negative 0 (-1074))
    else
      let (num, den) :=
        if exponent < 0 then (digits, Nat.pow 10 (-exponent).toNat)
        else (digits * Nat.pow 10 exponent.toNat, 1)
      (nearest? num den).map fun (m, q) => finite negative m q

/-- Zero, of either sign. -/
def isZero : Binary64 → Bool
  | finite _ m _ => m == 0
  | _ => false

/-- The nearest natural number, a half rounded up; nothing for a value that is not finite. A
negative value counts as 0. -/
def toNat? : Binary64 → Option Nat
  | finite true _ _ => some 0
  | finite false m q =>
    if q < 0 then some ((2 * m + Nat.pow 2 (-q).toNat) / (2 * Nat.pow 2 (-q).toNat))
    else some (m * Nat.pow 2 q.toNat)
  | _ => none

end Binary64

end ConsentGate
