import ConsentGate.Decimal.Digits
import ConsentGate.Outcome

/-!
# Reading 32-bit numbers

A number below `2^32` is written with decimal digits, at least one, after an optional plus sign.
Digits are read from the left, and the first character that does not fit is the fault.

Results:

* `readDigits_eq_ok_iff`: exactly the digits of a number below `2^32` are read.
* `readWord_eq_ok_iff`: so are they behind a plus sign, where there is at least one.
-/

namespace ConsentGate

/-- Why a text is no number below `2^32`. -/
inductive WordFault where
  /-- There is no character at all. -/
  | empty
  /-- A character is no digit, or there is only a sign. -/
  | digit
  /-- The number is too large. -/
  | range
  deriving DecidableEq

/-- The words for a fault in a number. -/
def WordFault.text : WordFault → String
  | empty => "cannot parse integer from empty string"
  | digit => "invalid digit found in string"
  | range => "number too large to fit in target type"

namespace Decimal

/-- The number with one more digit. -/
def nextDigit (n : Nat) (c : Char) : Except WordFault Nat :=
  if c.isDigit then
    if 10 * n + (c.toNat - '0'.toNat) < UInt32.size then .ok (10 * n + (c.toNat - '0'.toNat))
    else .error .range
  else .error .digit

/-- The number that digits denote. -/
def readDigits (digits : List Char) : Except WordFault Nat := digits.foldlM nextDigit 0

/-- The number that a text denotes. -/
def readWord (s : List Char) : Except WordFault UInt32 :=
  match s with
  | [] => .error .empty
  | ['+'] => .error .digit
  | '+' :: digits => (readDigits digits).map .ofNat
  | digits => (readDigits digits).map .ofNat

/-- Further digits make a number no smaller. -/
theorem le_ofDigitChars (s : List Char) (before : Nat) : before ≤ Nat.ofDigitChars 10 s before := by
  induction s generalizing before with
  | nil => simp
  | cons c s ih =>
    rw [Nat.ofDigitChars_cons]
    exact Nat.le_trans (by omega) (ih _)

theorem foldlM_nextDigit_eq_ok_iff {s : List Char} {before n : Nat} (h : before < UInt32.size) :
    s.foldlM nextDigit before = .ok n ↔
      s.all Char.isDigit ∧ Nat.ofDigitChars 10 s before = n ∧ n < UInt32.size := by
  induction s generalizing before with
  | nil =>
    simp only [List.foldlM_nil, List.all_nil, true_and, Nat.ofDigitChars_nil]
    constructor
    · intro hn
      cases hn
      exact ⟨rfl, h⟩
    · rintro ⟨rfl, _⟩
      rfl
  | cons c s ih =>
    simp only [List.foldlM_cons, List.all_cons, Nat.ofDigitChars_cons]
    by_cases hc : c.isDigit
    · by_cases hn : 10 * before + (c.toNat - '0'.toNat) < UInt32.size
      · have hstep : nextDigit before c = .ok (10 * before + (c.toNat - '0'.toNat)) := by
          simp only [nextDigit, hc, if_true, hn]
        rw [hstep, ok_bind, ih hn]
        simp [hc]
      · have hstep : nextDigit before c = .error .range := by
          simp only [nextDigit, hc, if_true, hn, if_false]
        rw [hstep]
        constructor
        · intro hbad
          cases hbad
        · rintro ⟨_, rfl, hlt⟩
          exact absurd (Nat.lt_of_le_of_lt (le_ofDigitChars _ _) hlt) hn
    · have hstep : nextDigit before c = .error .digit := by simp [nextDigit, hc]
      rw [hstep]
      constructor
      · intro hbad
        cases hbad
      · simp [hc]

/-- Exactly the digits of a number below `2^32` are read. -/
theorem readDigits_eq_ok_iff {s : List Char} {n : Nat} :
    readDigits s = .ok n ↔ s.all Char.isDigit ∧ Nat.ofDigitChars 10 s 0 = n ∧ n < UInt32.size :=
  foldlM_nextDigit_eq_ok_iff (by decide)

/-- A text writes a number: an optional plus sign, and digits of a number below `2^32`. -/
def WritesWord (s : List Char) (v : UInt32) : Prop :=
  ∃ sign digits, s = sign ++ digits ∧ (sign = [] ∨ sign = ['+']) ∧ IsDigits digits ∧
    Nat.ofDigitChars 10 digits 0 = v.toNat

theorem map_readDigits_eq_ok_iff {s : List Char} {v : UInt32} :
    (readDigits s).map UInt32.ofNat = .ok v ↔
      (∀ c ∈ s, c.isDigit = true) ∧ Nat.ofDigitChars 10 s 0 = v.toNat := by
  have hmap : (readDigits s).map UInt32.ofNat = .ok v ↔
      ∃ n, readDigits s = .ok n ∧ UInt32.ofNat n = v := map_eq_ok
  simp only [hmap, readDigits_eq_ok_iff, List.all_eq_true]
  constructor
  · rintro ⟨n, ⟨hdigits, hvalue, hn⟩, rfl⟩
    exact ⟨hdigits, hvalue.trans (UInt32.toNat_ofNat_of_lt' hn).symm⟩
  · rintro ⟨hdigits, hvalue⟩
    exact ⟨v.toNat, ⟨hdigits, hvalue, v.toNat_lt⟩, UInt32.ofNat_toNat⟩

/-- Exactly an optional plus sign with the digits of a number below `2^32` is read. -/
theorem readWord_eq_ok_iff {s : List Char} {v : UInt32} : readWord s = .ok v ↔ WritesWord s v := by
  constructor
  · intro h
    unfold readWord at h
    split at h
    · cases h
    · cases h
    · rename_i digits hne
      obtain ⟨hdigits, hvalue⟩ := map_readDigits_eq_ok_iff.1 h
      exact ⟨['+'], digits, rfl, .inr rfl, ⟨fun hnil => hne (hnil ▸ rfl), hdigits⟩, hvalue⟩
    · rename_i hne _ _
      obtain ⟨hdigits, hvalue⟩ := map_readDigits_eq_ok_iff.1 h
      exact ⟨[], s, rfl, .inl rfl, ⟨hne, hdigits⟩, hvalue⟩
  · rintro ⟨sign, digits, rfl, rfl | rfl, ⟨hne, hdigits⟩, hvalue⟩
    · obtain ⟨c, rest, rfl⟩ := List.exists_cons_of_ne_nil hne
      have hplus : c ≠ '+' := by
        rintro rfl
        exact absurd (hdigits '+' List.mem_cons_self) (by decide)
      have hread : readWord (c :: rest) = (readDigits (c :: rest)).map .ofNat := by
        unfold readWord
        split <;> simp_all
      rw [List.nil_append, hread, map_readDigits_eq_ok_iff]
      exact ⟨hdigits, hvalue⟩
    · obtain ⟨c, rest, rfl⟩ := List.exists_cons_of_ne_nil hne
      have hread : readWord ('+' :: c :: rest) = (readDigits (c :: rest)).map .ofNat := rfl
      rw [List.cons_append, List.nil_append, hread, map_readDigits_eq_ok_iff]
      exact ⟨hdigits, hvalue⟩

end Decimal

end ConsentGate
