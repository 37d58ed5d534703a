import ConsentGate.Text.Run

/-!
# Decimal digits

A natural number is written with decimal digits, and without leading zeros.

Results:

* `isDigits_toDigits`, `tail_eq_nil_of_toDigits`: what is written for a number are digits, and only
  zero starts with a zero.
* `toDigits_ofDigitChars`: digits without a leading zero are the digits of their number.
* `IsDigits.takeWhile_append`: a reader of digits stops where the digits stop.
-/

namespace ConsentGate.Decimal

/-- A text of digits, at least one. -/
def IsDigits (s : List Char) : Prop := s ≠ [] ∧ ∀ c ∈ s, c.isDigit = true

theorem isDigits_toDigits (n : Nat) : IsDigits (Nat.toDigits 10 n) :=
  ⟨Nat.toDigits_ne_nil, fun _ hc => Nat.isDigit_of_mem_toDigits (by decide) (by decide) hc⟩

/-- No character of digits is one that is no digit. -/
theorem IsDigits.ne {s : List Char} (h : IsDigits s) {c d : Char} (hc : c ∈ s)
    (hd : d.isDigit = false) : c ≠ d := by
  rintro rfl
  exact Bool.false_ne_true (hd.symm.trans (h.2 c hc))

/-- Only zero is written with a zero in front. -/
theorem tail_eq_nil_of_toDigits {n : Nat} {s : List Char} (h : Nat.toDigits 10 n = '0' :: s) :
    s = [] := by
  induction n using Nat.strongRecOn generalizing s with
  | _ n ih =>
    by_cases hn : n < 10
    · rw [Nat.toDigits_of_lt_base hn] at h
      exact (List.cons.inj h).2.symm
    · rw [Nat.toDigits_of_base_le (by decide) (Nat.le_of_not_lt hn)] at h
      cases hp : Nat.toDigits 10 (n / 10) with
      | nil => exact absurd hp Nat.toDigits_ne_nil
      | cons c t =>
        -- the digits of `n / 10` start like those of `n`, so they are a single zero
        rw [hp, List.cons_append] at h
        obtain ⟨rfl, -⟩ := List.cons.inj h
        have hzero : Nat.ofDigitChars 10 (Nat.toDigits 10 (n / 10)) 0 = n / 10 :=
          Nat.ofDigitChars_ten_toDigits
        rw [hp, ih (n / 10) (by omega) hp] at hzero
        have : n / 10 = 0 := hzero.symm
        omega

/-- The digit of the value of a digit is that digit. -/
theorem digitChar_of_isDigit {c : Char} (h : c.isDigit = true) :
    c.toNat - '0'.toNat < 10 ∧ Nat.digitChar (c.toNat - '0'.toNat) = c := by
  simp only [Char.isDigit, Bool.and_eq_true, decide_eq_true_eq] at h
  have hlow : 48 ≤ c.toNat := h.1
  have hhigh : c.toNat ≤ 57 := h.2
  have hzero : '0'.toNat = 48 := rfl
  have hvalue : c.toNat - '0'.toNat < 10 := by omega
  refine ⟨hvalue, Char.toNat_inj.1 ?_⟩
  rw [Nat.toNat_digitChar_of_lt_ten hvalue]
  omega

/-- Digits behind a positive number are written behind it. -/
theorem toDigits_ofDigitChars_of_pos {s : List Char} (h : ∀ c ∈ s, c.isDigit = true) {n : Nat}
    (hn : 0 < n) : Nat.toDigits 10 (Nat.ofDigitChars 10 s n) = Nat.toDigits 10 n ++ s := by
  induction s generalizing n with
  | nil => rw [Nat.ofDigitChars_nil, List.append_nil]
  | cons c s ih =>
    obtain ⟨hc, hdigit⟩ := digitChar_of_isDigit (h c List.mem_cons_self)
    rw [Nat.ofDigitChars_cons, ih (fun d hd => h d (List.mem_cons_of_mem _ hd)) (by omega),
      ← Nat.toDigits_append_toDigits (by decide) hn hc, Nat.toDigits_of_lt_base hc, hdigit,
      List.append_assoc, List.singleton_append]

/-- Digits without a leading zero are the digits of their number. -/
theorem toDigits_ofDigitChars {s : List Char} (h : IsDigits s)
    (hzero : s = ['0'] ∨ s.head? ≠ some '0') :
    Nat.toDigits 10 (Nat.ofDigitChars 10 s 0) = s := by
  rcases hzero with rfl | hzero
  · rfl
  · cases s with
    | nil => exact absurd rfl h.1
    | cons c s =>
      obtain ⟨hc, hdigit⟩ := digitChar_of_isDigit (h.2 c List.mem_cons_self)
      have hpos : 0 < c.toNat - '0'.toNat := by
        refine Nat.pos_of_ne_zero fun heq => hzero ?_
        rw [heq] at hdigit
        rw [List.head?_cons, ← hdigit]
        rfl
      rw [Nat.ofDigitChars_cons, Nat.mul_zero, Nat.zero_add,
        toDigits_ofDigitChars_of_pos (fun d hd => h.2 d (List.mem_cons_of_mem _ hd)) hpos,
        Nat.toDigits_of_lt_base hc, hdigit, List.singleton_append]

/-- A text that no digit starts. -/
def NoDigit (s : List Char) : Prop := ∀ c, s.head? = some c → c.isDigit = false

/-- A reader of digits stops where the digits stop. -/
theorem IsDigits.takeWhile_append {s rest : List Char} (h : IsDigits s) (hrest : NoDigit rest) :
    (s ++ rest).takeWhile Char.isDigit = s :=
  Text.takeWhile_append_of_stops h.2 hrest

theorem IsDigits.dropWhile_append {s rest : List Char} (h : IsDigits s) (hrest : NoDigit rest) :
    (s ++ rest).dropWhile Char.isDigit = rest :=
  Text.dropWhile_append_of_stops h.2 hrest

end ConsentGate.Decimal
