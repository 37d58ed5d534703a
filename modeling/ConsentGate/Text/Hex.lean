/-!
# Hexadecimal digits

Numbers in base 16: reading takes digits of either case, writing uses lower case and pads with
zeros on the left.

Results:

* `hexNumber?_hexDigits`, `length_hexDigits`: what is written for a number reads as the number, and
  keeps to the width.
* `hexFrom?_map_toUpper`: the case of digits does not matter.
-/

namespace ConsentGate.Text

/-- The value of a hexadecimal digit of either case. -/
def hexValue? (c : Char) : Option Nat :=
  if c.isDigit then some (c.toNat - '0'.toNat)
  else if 'a' ≤ c ∧ c ≤ 'f' then some (c.toNat - 'a'.toNat + 10)
  else if 'A' ≤ c ∧ c ≤ 'F' then some (c.toNat - 'A'.toNat + 10)
  else none

/-- The number that digits continue, after digits of value `before`. -/
def hexFrom? (before : Nat) : List Char → Option Nat
  | [] => some before
  | c :: rest => (hexValue? c).bind fun d => hexFrom? (16 * before + d) rest

/-- The number that a list of hexadecimal digits denotes. -/
def hexNumber? (digits : List Char) : Option Nat := hexFrom? 0 digits

theorem hexFrom?_append (before : Nat) (s t : List Char) :
    hexFrom? before (s ++ t) = (hexFrom? before s).bind fun n => hexFrom? n t := by
  induction s generalizing before with
  | nil => rfl
  | cons c s ih => simp [hexFrom?, ih, Option.bind_assoc]

theorem hexValue?_toUpper (c : Char) : hexValue? c.toUpper = hexValue? c := by
  by_cases hc : 'a'.val ≤ c.val ∧ c.val ≤ 'z'.val
  · have hall : ∀ k : Fin 26, hexValue? (Char.ofNat (97 + k)).toUpper =
        hexValue? (Char.ofNat (97 + k)) := by decide
    have hlow : 97 ≤ c.toNat := hc.1
    have hhigh : c.toNat ≤ 122 := hc.2
    have h := hall ⟨c.toNat - 97, by omega⟩
    rw [show 97 + (c.toNat - 97) = c.toNat by omega, Char.ofNat_toNat] at h
    exact h
  · have hupper : c.toUpper = c := dif_neg hc
    rw [hupper]

/-- The case of digits does not matter. -/
theorem hexFrom?_map_toUpper (before : Nat) (s : List Char) :
    hexFrom? before (s.map Char.toUpper) = hexFrom? before s := by
  induction s generalizing before with
  | nil => rfl
  | cons c s ih => simp only [List.map_cons, hexFrom?, hexValue?_toUpper, ih]

/-! ## Writing -/

/-- The digits of a number in lower case, with zeros on the left up to a width. -/
def hexDigits (width n : Nat) : List Char :=
  let digits := Nat.toDigits 16 n
  List.replicate (width - digits.length) '0' ++ digits

theorem hexValue?_digitChar {d : Nat} (h : d < 16) : hexValue? d.digitChar = some d := by
  have hall : ∀ d : Fin 16, hexValue? d.val.digitChar = some d.val := by decide
  exact hall ⟨d, h⟩

theorem hexNumber?_toDigits (n : Nat) : hexNumber? (Nat.toDigits 16 n) = some n := by
  induction n using Nat.strongRecOn with
  | _ n ih =>
    by_cases h : n < 16
    · rw [Nat.toDigits_of_lt_base h]
      simp [hexNumber?, hexFrom?, hexValue?_digitChar h]
    · rw [Nat.toDigits_of_base_le (by decide) (Nat.le_of_not_lt h), hexNumber?, hexFrom?_append]
      have hfront : hexFrom? 0 (Nat.toDigits 16 (n / 16)) = some (n / 16) :=
        ih (n / 16) (by omega)
      have hlast := hexValue?_digitChar (Nat.mod_lt n (by decide : 0 < 16))
      simp only [hfront, hexFrom?, hlast, Option.bind_some, Option.some.injEq]
      omega

theorem hexFrom?_zeros (count : Nat) (s : List Char) :
    hexFrom? 0 (List.replicate count '0' ++ s) = hexFrom? 0 s := by
  induction count with
  | zero => rfl
  | succ count ih =>
    rw [List.replicate_succ, List.cons_append, hexFrom?, ← ih]
    rfl

/-- What is written for a number reads as the number. -/
theorem hexNumber?_hexDigits (width n : Nat) : hexNumber? (hexDigits width n) = some n := by
  rw [hexNumber?, hexDigits, hexFrom?_zeros]
  exact hexNumber?_toDigits n

/-- A number below `16 ^ width` takes exactly `width` digits. -/
theorem length_hexDigits {width n : Nat} (hw : 0 < width) (h : n < Nat.pow 16 width) :
    (hexDigits width n).length = width := by
  have hle : (Nat.toDigits 16 n).length ≤ width :=
    (Nat.length_toDigits_le_iff (by decide) hw).2 h
  simp only [hexDigits, List.length_append, List.length_replicate]
  omega

end ConsentGate.Text
