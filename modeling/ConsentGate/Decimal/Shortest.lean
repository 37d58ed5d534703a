import ConsentGate.Decimal.Binary64

/-!
# Shortest decimals

The decimal of a finite binary value is the one with the fewest digits that still reads back as the
value, and of those the nearest. It is written without an exponent.
-/

namespace ConsentGate.Binary64

/-- Twice the value `m · 2^q` and the two ends of the interval of numbers that read back as it, as
numerators over one denominator: `(low, value, high, denominator)`. Below a power of two the
interval is half as wide. -/
def bounds (m : Nat) (q : Int) : Nat × Nat × Nat × Nat :=
  let below := if m = Nat.pow 2 52 ∧ q > -1074 then 4 * m - 1 else 4 * m - 2
  let e := q - 2
  if e < 0 then (below, 4 * m, 4 * m + 2, Nat.pow 2 (-e).toNat)
  else (below * Nat.pow 2 e.toNat, 4 * m * Nat.pow 2 e.toNat, (4 * m + 2) * Nat.pow 2 e.toNat, 1)

/-- Whether `digits · 10^k` reads back as the value with mantissa `m` and exponent `q`. -/
def readsBack (m : Nat) (q : Int) (digits : Nat) (k : Int) : Bool :=
  let (low, _, high, den) := bounds m q
  let (point, low, high) :=
    if k < 0 then (digits * den, low * Nat.pow 10 (-k).toNat, high * Nat.pow 10 (-k).toNat)
    else (digits * Nat.pow 10 k.toNat * den, low, high)
  if m % 2 = 0 then decide (low ≤ point ∧ point ≤ high) else decide (low < point ∧ point < high)

/-- The two neighbours of the value among the multiples of `10^k`, and whether the upper one is
nearer. -/
def neighbours (m : Nat) (q : Int) (k : Int) : Nat × Bool :=
  let (_, value, _, den) := bounds m q
  let (num, den) :=
    if k < 0 then (value * Nat.pow 10 (-k).toNat, den)
    else (value, den * Nat.pow 10 k.toNat)
  (num / den, decide (den ≤ 2 * (num % den)))

/-- The multiple of `10^k` that reads back as the value, the nearer of two. -/
def onGrid? (m : Nat) (q : Int) (k : Int) : Option Nat :=
  let (lower, upperNearer) := neighbours m q k
  let candidates := if upperNearer then [lower + 1, lower] else [lower, lower + 1]
  candidates.find? fun digits => decide (0 < digits) && readsBack m q digits k

/-- The largest `k` with `10^k ≤ m · 2^q`, for positive `m`, searched downwards. -/
def floorLog10 (m : Nat) (q : Int) : Int :=
  let (_, value, _, den) := bounds m q
  if value < den then
    let count := (Nat.toDigits 10 (den / value)).length
    -- `10^(count-1) ≤ den / value < 10^count`
    if value * Nat.pow 10 (count - 1) ≥ den then -((count : Int) - 1) else -(count : Int)
  else ((Nat.toDigits 10 (value / den)).length : Int) - 1

/-- The shortest decimal `digits · 10^k` of a positive value: the first hit over ever finer grids.
The first grid is the one above the value, for a value whose one digit is the next power of ten;
seventeen digits always hit. -/
def shortest (m : Nat) (q : Int) : Nat × Int :=
  let top := floorLog10 m q
  let grids : List Int := (List.range 18).map fun (n : Nat) => top + 1 - (n : Int)
  match grids.findSome? fun k => (onGrid? m q k).map fun digits => (digits, k) with
  | some found => found
  | none => (m, q)

/-- The digits `digits · 10^k` in positional notation. -/
def positional (digits : Nat) (k : Int) : List Char :=
  let text := Nat.toDigits 10 digits
  if 0 ≤ k then text ++ List.replicate k.toNat '0'
  else
    let places := (-k).toNat
    let padded := List.replicate (places + 1 - text.length) '0' ++ text
    padded.take (padded.length - places) ++ '.' :: padded.drop (padded.length - places)

/-- The text of a value: its shortest decimal in positional notation. -/
def text : Binary64 → String
  | nan => "NaN"
  | infinite negative => if negative then "-inf" else "inf"
  | finite negative m q =>
    let body :=
      if m = 0 then ['0']
      else
        let (digits, k) := shortest m q
        positional digits k
    .ofList (if negative then '-' :: body else body)

end ConsentGate.Binary64
