import ConsentGate.Decimal.Digits
import ConsentGate.Json.Lexeme
import Mathlib.Data.List.TakeWhile

/-!
# Spelling lexemes

A lexeme can be spelled in more than one way only where its spelling is not held: the digits of a
code unit come in either case, and an exponent with either letter and, unless it is negative, with
or without a sign. The scanner takes exactly the spellings, and a number ends where a character
follows that cannot go on with it.

Results:

* `scanString_eq_ok_iff`: exactly the spellings of a string are scanned as the string.
* `scanNumeral_of_isSpelled`, `isSpelled_of_scanNumeral`: a spelling of a number is scanned as the
  number, and what is scanned as a number is a spelling of it.
* `begins_of_isSpelled`, `isSpelled_of_scan`: the same for any lexeme.
-/

namespace ConsentGate

open Decimal (IsDigits NoDigit)

/-! ## Spellings -/

/-- A plain piece is none of the characters that only an escape can write. -/
def Piece.WellFormed : Piece → Prop
  | .plain c => c ≠ '"' ∧ c ≠ '\\' ∧ ¬ c < ' '
  | .short _ | .unit _ => True

/-- How a piece of a string is written. -/
inductive Piece.IsSpelled : Piece → List Char → Prop
  | plain {c : Char} (h : (Piece.plain c).WellFormed) : IsSpelled (.plain c) [c]
  | short (e : Escape) : IsSpelled (.short e) ['\\', e.letter]
  /-- The digits are of either case. -/
  | unit {code : UInt16} {a b c d : Char} (h : Json.unit? a b c d = some code) :
    IsSpelled (.unit code) ['\\', 'u', a, b, c, d]

/-- How a string is written between its quotes, piece by piece. -/
inductive Quoted.IsSpelled : Quoted → List Char → Prop
  | nil : IsSpelled [] []
  | cons {piece : Piece} {q : Quoted} {s t : List Char} (h : piece.IsSpelled s)
    (rest : IsSpelled q t) : IsSpelled (piece :: q) (s ++ t)

/-- The digits of a number are digits, and a whole part starts with a zero only if it is zero. -/
structure Numeral.WellFormed (n : Numeral) : Prop where
  whole : IsDigits n.whole
  noLeadingZero : ∀ s, n.whole = '0' :: s → s = []
  fraction : ∀ s, n.fraction = some s → IsDigits s
  exponent : ∀ e, n.exponent = some e → IsDigits e.digits

/-- How an exponent is written: with either letter, and with a sign if it is negative. -/
def Exponent.IsSpelled (e : Exponent) (s : List Char) : Prop :=
  ∃ letter sign, (letter = 'e' ∨ letter = 'E') ∧
    (sign ∈ if e.negative then [['-']] else [[], ['+']]) ∧ s = letter :: (sign ++ e.digits)

/-- How a number is written. -/
def Numeral.IsSpelled (n : Numeral) (s : List Char) : Prop :=
  n.WellFormed ∧ ∃ exponent,
    (∀ e, n.exponent = some e → e.IsSpelled exponent) ∧ (n.exponent = none → exponent = []) ∧
    s = (if n.negative then ['-'] else []) ++ (n.whole ++
      (n.fraction.elim [] ('.' :: ·) ++ exponent))

namespace Json

/-- How a lexeme is written. -/
def Lexeme.IsSpelled : Lexeme → List Char → Prop
  | .openBracket, s => s = ['[']
  | .closeBracket, s => s = [']']
  | .openBrace, s => s = ['\x7b']
  | .closeBrace, s => s = ['\x7d']
  | .comma, s => s = [',']
  | .colon, s => s = [':']
  | .string q, s => ∃ t, q.IsSpelled t ∧ s = '"' :: (t ++ ['"'])
  | .atom .null, s => s = ['n', 'u', 'l', 'l']
  | .atom (.bool true), s => s = ['t', 'r', 'u', 'e']
  | .atom (.bool false), s => s = ['f', 'a', 'l', 's', 'e']
  | .atom (.number n), s => n.IsSpelled s
  | .atom _, _ | .broken _ _, _ => False

/-! ## Strings -/

theorem letter_of_ofLetter? {c : Char} {e : Escape} (h : Escape.ofLetter? c = some e) :
    e.letter = c := by
  simpa using List.find?_some h

/-- A piece is scanned in front of any string. -/
theorem scanString_piece {piece : Piece} {s : List Char} (h : piece.IsSpelled s)
    {t after : List Char} {q : Quoted} (ht : scanString .shape false t = .ok (q, after)) :
    scanString .shape false (s ++ t) = .ok (piece :: q, after) := by
  cases h with
  | plain h =>
    obtain ⟨hquote, hbackslash, hcontrol⟩ := h
    simp [scanString, hquote, hbackslash, hcontrol, ht]
  | short e =>
    -- no letter of a short escape is the one that announces digits
    cases e <;> simp [Escape.letter, scanString, Escape.ofLetter?, Escape.all, ht]
  | unit h => simp [scanString, h, ht]

/-- A string is scanned up to its closing quote. -/
theorem scanString_of_isSpelled {q : Quoted} {s : List Char} (h : q.IsSpelled s)
    (after : List Char) : scanString .shape false (s ++ '"' :: after) = .ok (q, after) := by
  induction h with
  | nil => simp [scanString]
  | cons h rest ih =>
    rw [List.append_assoc]
    exact scanString_piece h ih

/-- What is scanned as a string is a spelling of it and its closing quote. -/
theorem isSpelled_of_scanString {owing : Bool} {s after : List Char} {q : Quoted}
    (h : scanString .shape owing s = .ok (q, after)) :
    ∃ t, q.IsSpelled t ∧ s = t ++ '"' :: after := by
  fun_induction scanString .shape owing s generalizing q after with
  | case4 owing a b c d rest code hcode _ ih =>
    obtain ⟨⟨q, after⟩, hrest, heq⟩ := bind_eq_ok.1 h
    cases heq
    obtain ⟨t, ht, rfl⟩ := ih hrest
    exact ⟨_, .cons (.unit hcode) ht, rfl⟩
  | case9 owing c rest _ _ _ e he ih =>
    obtain ⟨⟨q, after⟩, hrest, heq⟩ := bind_eq_ok.1 h
    cases heq
    obtain ⟨t, ht, rfl⟩ := ih hrest
    obtain rfl := letter_of_ofLetter? he
    exact ⟨_, .cons (.short e) ht, rfl⟩
  | case11 owing rest =>
    cases h
    exact ⟨[], .nil, rfl⟩
  | case13 owing c rest _ _ hempty hcons _ hquote hcontrol ih =>
    obtain ⟨⟨q, after⟩, hrest, heq⟩ := bind_eq_ok.1 h
    cases heq
    have hbackslash : c ≠ '\\' := by
      cases rest with
      | nil => exact fun hc => hempty hc rfl
      | cons d rest => exact fun hc => hcons d rest hc rfl
    obtain ⟨t, ht, rfl⟩ := ih hrest
    exact ⟨_, .cons (.plain ⟨hquote, hbackslash, hcontrol⟩) ht, rfl⟩
  | case1 | case2 | case3 | case5 | case6 | case7 | case8 | case10 | case12 => cases h

/-- Exactly the spellings of a string are scanned as the string. -/
theorem scanString_eq_ok_iff {s after : List Char} {q : Quoted} :
    scanString .shape false s = .ok (q, after) ↔ ∃ t, q.IsSpelled t ∧ s = t ++ '"' :: after := by
  constructor
  · exact isSpelled_of_scanString
  · rintro ⟨t, ht, rfl⟩
    exact scanString_of_isSpelled ht after

/-! ## Numbers -/

/-- A text that does not go on with a number. -/
def Ends (rest : List Char) : Prop :=
  ∀ c, rest.head? = some c → c.isDigit = false ∧ c ≠ '.' ∧ c ≠ 'e' ∧ c ≠ 'E'

theorem Ends.noDigit {rest : List Char} (h : Ends rest) : NoDigit rest := fun c hc => (h c hc).1

theorem ends_cons {c : Char} (h : c.isDigit = false ∧ c ≠ '.' ∧ c ≠ 'e' ∧ c ≠ 'E')
    (rest : List Char) : Ends (c :: rest) := by
  rintro _ ⟨⟩
  exact h

theorem scanDigits_append {s rest : List Char} (h : IsDigits s) (hrest : NoDigit rest) :
    scanDigits (s ++ rest) = .ok (s, rest) := by
  rw [scanDigits, h.takeWhile_append hrest, h.dropWhile_append hrest]
  cases s with
  | nil => exact absurd rfl h.1
  | cons c s => rfl

theorem isDigits_of_scanDigits {s digits after : List Char}
    (h : scanDigits s = .ok (digits, after)) : IsDigits digits ∧ s = digits ++ after := by
  unfold scanDigits at h
  split at h
  · cases h
  · rename_i hne
    obtain ⟨rfl, rfl⟩ := Prod.mk.inj (Except.ok.inj h)
    exact ⟨⟨hne, fun c hc => List.mem_takeWhile_imp hc⟩, List.takeWhile_append_dropWhile.symm⟩

theorem scanWhole_append {n : Numeral} (h : n.WellFormed) {rest : List Char}
    (hrest : NoDigit rest) : scanWhole (n.whole ++ rest) = .ok (n.whole, rest) := by
  rw [scanWhole, scanDigits_append h.whole hrest, ok_bind]
  simp only
  split
  · rename_i second s hzero
    exact absurd (h.noLeadingZero _ hzero) (List.cons_ne_nil _ _)
  · rfl

theorem isDigits_of_scanWhole {s digits after : List Char}
    (h : scanWhole s = .ok (digits, after)) :
    IsDigits digits ∧ (∀ t, digits = '0' :: t → t = []) ∧ s = digits ++ after := by
  obtain ⟨⟨found, after'⟩, hdigits, hzero⟩ := bind_eq_ok.1 h
  simp only at hzero
  split at hzero
  · cases hzero
  · rename_i hzeros
    obtain ⟨rfl, rfl⟩ := Prod.mk.inj (Except.ok.inj hzero)
    obtain ⟨hfound, hsplit⟩ := isDigits_of_scanDigits hdigits
    refine ⟨hfound, fun t ht => ?_, hsplit⟩
    cases t with
    | nil => rfl
    | cons c t => exact absurd ht (hzeros c t)

theorem scanFraction_append {fraction : Option (List Char)}
    (h : ∀ s, fraction = some s → IsDigits s) {rest : List Char}
    (hrest : ∀ c, rest.head? = some c → c.isDigit = false ∧ c ≠ '.') :
    scanFraction (fraction.elim [] ('.' :: ·) ++ rest) = .ok (fraction, rest) := by
  cases fraction with
  | none =>
    rw [Option.elim_none, List.nil_append]
    unfold scanFraction
    split
    · exact absurd rfl (hrest '.' rfl).2
    · rfl
  | some s =>
    simp only [Option.elim_some, List.cons_append, scanFraction,
      scanDigits_append (h s rfl) fun c hc => (hrest c hc).1]
    rfl

theorem isDigits_of_scanFraction {s after : List Char} {fraction : Option (List Char)}
    (h : scanFraction s = .ok (fraction, after)) :
    (∀ t, fraction = some t → IsDigits t) ∧ s = fraction.elim [] ('.' :: ·) ++ after := by
  unfold scanFraction at h
  split at h
  · obtain ⟨⟨digits, after'⟩, hdigits, heq⟩ := bind_eq_ok.1 h
    cases heq
    obtain ⟨hfound, rfl⟩ := isDigits_of_scanDigits hdigits
    refine ⟨fun t ht => ?_, rfl⟩
    cases ht
    exact hfound
  · cases h
    exact ⟨nofun, rfl⟩

theorem scanSign_append {negative : Bool} {sign digits : List Char}
    (hsign : sign ∈ if negative then [['-']] else [[], ['+']]) (h : IsDigits digits)
    (rest : List Char) : scanSign (sign ++ (digits ++ rest)) = (negative, digits ++ rest) := by
  cases negative with
  | true =>
    obtain rfl := List.mem_singleton.1 hsign
    rfl
  | false =>
    rcases List.mem_cons.1 hsign with rfl | hsign
    · obtain ⟨c, t, rfl⟩ := List.exists_cons_of_ne_nil h.1
      rw [List.nil_append, List.cons_append]
      unfold scanSign
      split
      · exact absurd (List.cons.inj ‹_›).1 (h.ne List.mem_cons_self (by decide))
      · exact absurd (List.cons.inj ‹_›).1 (h.ne List.mem_cons_self (by decide))
      · rfl
    · obtain rfl := List.mem_singleton.1 hsign
      rfl

theorem exists_sign (s : List Char) : ∃ sign,
    (sign ∈ if (scanSign s).1 then [['-']] else [[], ['+']]) ∧ s = sign ++ (scanSign s).2 := by
  unfold scanSign
  split
  · exact ⟨['-'], List.mem_singleton_self _, rfl⟩
  · exact ⟨['+'], List.mem_cons_of_mem _ (List.mem_singleton_self _), rfl⟩
  · exact ⟨[], List.mem_cons_self, rfl⟩

theorem scanExponent_none {rest : List Char} (hrest : Ends rest) :
    scanExponent rest = .ok (none, rest) := by
  cases rest with
  | nil => rfl
  | cons c rest =>
    obtain ⟨-, -, he, hE⟩ := hrest c rfl
    simp [scanExponent, he, hE]

theorem scanExponent_append {e : Exponent} (h : IsDigits e.digits) {s : List Char}
    (hs : e.IsSpelled s) {rest : List Char} (hrest : NoDigit rest) :
    scanExponent (s ++ rest) = .ok (some e, rest) := by
  obtain ⟨letter, sign, hletter, hsign, rfl⟩ := hs
  rw [List.cons_append, List.append_assoc, scanExponent, if_pos hletter,
    scanSign_append hsign h rest]
  simp only [scanDigits_append h hrest, ok_bind]
  rfl

theorem isSpelled_of_scanExponent {s after : List Char} {exponent : Option Exponent}
    (h : scanExponent s = .ok (exponent, after)) :
    (∀ e, exponent = some e → IsDigits e.digits) ∧ ∃ t,
      (∀ e, exponent = some e → e.IsSpelled t) ∧ (exponent = none → t = []) ∧ s = t ++ after := by
  cases s with
  | nil =>
    cases h
    exact ⟨by simp, [], by simp⟩
  | cons c s =>
    rw [scanExponent] at h
    split at h
    · rename_i hletter
      obtain ⟨⟨digits, after'⟩, hdigits, heq⟩ := bind_eq_ok.1 h
      cases heq
      obtain ⟨hfound, hsplit⟩ := isDigits_of_scanDigits hdigits
      obtain ⟨sign, hsign, hs⟩ := exists_sign s
      have hspelled (e : Exponent) (he : some ⟨(scanSign s).1, digits⟩ = some e) :
          IsDigits e.digits ∧ e.IsSpelled (c :: (sign ++ digits)) := by
        cases he
        exact ⟨hfound, c, sign, hletter, hsign, rfl⟩
      refine ⟨fun e he => (hspelled e he).1, _, fun e he => (hspelled e he).2, by simp, ?_⟩
      rw [List.cons_append, List.append_assoc, ← hsplit, ← hs]
    · cases h
      exact ⟨by simp, [], by simp⟩

theorem scanMinus_append (negative : Bool) {digits : List Char} (h : IsDigits digits)
    (rest : List Char) : scanMinus ((if negative then ['-'] else []) ++ (digits ++ rest)) =
      (negative, digits ++ rest) := by
  cases negative with
  | true => rfl
  | false =>
    obtain ⟨c, t, rfl⟩ := List.exists_cons_of_ne_nil h.1
    simp only [Bool.false_eq_true, if_false, List.nil_append, List.cons_append]
    unfold scanMinus
    split
    · exact absurd (List.cons.inj ‹_›).1 (h.ne List.mem_cons_self (by decide))
    · rfl

theorem eq_append_scanMinus (s : List Char) :
    s = (if (scanMinus s).1 then ['-'] else []) ++ (scanMinus s).2 := by
  unfold scanMinus
  split <;> rfl

/-- What may follow the fraction of a number does not go on with it. -/
theorem head?_exponent {n : Numeral} {exponent rest : List Char}
    (hsome : ∀ e, n.exponent = some e → e.IsSpelled exponent)
    (hnone : n.exponent = none → exponent = []) (hrest : Ends rest) :
    ∀ c, (exponent ++ rest).head? = some c → c.isDigit = false ∧ c ≠ '.' := by
  cases he : n.exponent with
  | none =>
    rw [hnone he, List.nil_append]
    exact fun c hc => ⟨(hrest c hc).1, (hrest c hc).2.1⟩
  | some e =>
    obtain ⟨letter, sign, hletter, -, rfl⟩ := hsome e he
    rintro _ ⟨⟩
    rcases hletter with rfl | rfl <;> decide

/-- A spelling of a number is scanned as the number where it ends. -/
theorem scanNumeral_of_isSpelled {n : Numeral} {s : List Char} (h : n.IsSpelled s)
    {rest : List Char} (hrest : Ends rest) : scanNumeral (s ++ rest) = .ok (n, rest) := by
  obtain ⟨hn, exponent, hsome, hnone, rfl⟩ := h
  have hhead := head?_exponent hsome hnone hrest
  have hfraction : NoDigit (n.fraction.elim [] ('.' :: ·) ++ (exponent ++ rest)) := by
    cases n.fraction with
    | none => exact fun c hc => (hhead c hc).1
    | some s =>
      rintro _ ⟨⟩
      rfl
  have hexponent : scanExponent (exponent ++ rest) = .ok (n.exponent, rest) := by
    cases he : n.exponent with
    | none =>
      rw [hnone he, List.nil_append]
      exact scanExponent_none hrest
    | some e => exact scanExponent_append (hn.exponent e he) (hsome e he) hrest.noDigit
  simp only [List.append_assoc, scanNumeral, scanMinus_append n.negative hn.whole,
    scanWhole_append hn hfraction, scanFraction_append hn.fraction hhead, hexponent, ok_bind]
  rfl

/-- What is scanned as a number is a spelling of it. -/
theorem isSpelled_of_scanNumeral {s after : List Char} {n : Numeral}
    (h : scanNumeral s = .ok (n, after)) : ∃ t, n.IsSpelled t ∧ s = t ++ after := by
  obtain ⟨⟨whole, s₁⟩, hwhole, h⟩ := bind_eq_ok.1 h
  obtain ⟨⟨fraction, s₂⟩, hfraction, h⟩ := bind_eq_ok.1 h
  obtain ⟨⟨exponent, s₃⟩, hexponent, h⟩ := bind_eq_ok.1 h
  cases h
  obtain ⟨hdigits, hzero, hs⟩ := isDigits_of_scanWhole hwhole
  obtain ⟨hfractionDigits, hs₁⟩ := isDigits_of_scanFraction hfraction
  obtain ⟨hexponentDigits, t, hsome, hnone, hs₂⟩ := isSpelled_of_scanExponent hexponent
  refine ⟨_, ⟨⟨hdigits, hzero, hfractionDigits, hexponentDigits⟩, t, hsome, hnone, rfl⟩, ?_⟩
  rw [List.append_assoc, List.append_assoc, List.append_assoc, ← hs₂, ← hs₁, ← hs]
  exact eq_append_scanMinus s

/-! ## Lexemes -/

/-- A number starts with a minus sign or a digit. -/
theorem exists_cons_of_isSpelled {n : Numeral} {s : List Char} (h : n.IsSpelled s) :
    ∃ c t, s = c :: t ∧ (c = '-' ∨ c.isDigit = true) := by
  obtain ⟨hn, exponent, -, -, rfl⟩ := h
  obtain ⟨d, t, ht⟩ := List.exists_cons_of_ne_nil hn.whole.1
  have hd := hn.whole.2 d (ht ▸ List.mem_cons_self)
  rw [ht]
  cases n.negative with
  | true => exact ⟨'-', _, rfl, .inl rfl⟩
  | false => exact ⟨d, _, rfl, .inr hd⟩

theorem scan_of_digit {c : Char} (h : c = '-' ∨ c.isDigit = true) (rest : List Char) :
    scan .shape c rest = (do
      let (n, after) ← scanNumeral (c :: rest)
      return (.atom (.number (← inRange .shape n after)), after)) := by
  unfold scan
  split
  case h_11 => rw [if_pos (by simpa using h)]
  all_goals
    exfalso
    revert h
    decide

/-- No white space starts a number. -/
theorem isSpace_of_digit {c : Char} (h : c = '-' ∨ c.isDigit = true) : isSpace c = false := by
  cases hspace : isSpace c with
  | false => rfl
  | true =>
    simp only [isSpace, Bool.or_eq_true, beq_iff_eq] at hspace
    rcases hspace with ((rfl | rfl) | rfl) | rfl <;> revert h <;> decide

/-- A text starts with a lexeme, and `rest` follows it. -/
def Begins (s : List Char) (l : Lexeme) (rest : List Char) : Prop :=
  ∃ c t, s = c :: t ∧ isSpace c = false ∧ scan .shape c t = .ok (l, rest)

theorem lexemes_of_begins {s rest : List Char} {l : Lexeme} (h : Begins s l rest) :
    lexemes .shape s = ⟨l, s⟩ :: lexemes .shape rest := by
  obtain ⟨c, t, rfl, hc, hscan⟩ := h
  rw [lexemes, if_neg (by simp [hc])]
  split
  · rename_i heq
    obtain ⟨rfl, rfl⟩ := Prod.mk.inj (Except.ok.inj (hscan.symm.trans heq))
    rfl
  · rename_i heq
    cases hscan.symm.trans heq

theorem begins_string {q : Quoted} {s : List Char} (h : q.IsSpelled s) (rest : List Char) :
    Begins ('"' :: (s ++ ['"']) ++ rest) (.string q) rest := by
  rw [List.cons_append, List.append_assoc]
  refine ⟨_, _, rfl, by decide, ?_⟩
  simp only [scan, List.cons_append, List.nil_append, scanString_of_isSpelled h rest]
  rfl

theorem begins_number {n : Numeral} {s : List Char} (h : n.IsSpelled s) {rest : List Char}
    (hrest : Ends rest) : Begins (s ++ rest) (.atom (.number n)) rest := by
  have hscan := scanNumeral_of_isSpelled h hrest
  obtain ⟨c, t, rfl, hc⟩ := exists_cons_of_isSpelled h
  rw [List.cons_append] at hscan ⊢
  refine ⟨_, _, rfl, isSpace_of_digit hc, ?_⟩
  rw [scan_of_digit hc, hscan]
  rfl

/-- A spelling of a lexeme is scanned as the lexeme; a number has to end there. -/
theorem begins_of_isSpelled {l : Lexeme} {s : List Char} (h : l.IsSpelled s) {rest : List Char}
    (hrest : ∀ n, l = .atom (.number n) → Ends rest) : Begins (s ++ rest) l rest := by
  cases l with
  | openBracket | closeBracket | openBrace | closeBrace | comma | colon =>
    cases h
    exact ⟨_, _, rfl, by decide, rfl⟩
  | string q =>
    obtain ⟨t, ht, rfl⟩ := h
    exact begins_string ht rest
  | atom value =>
    cases value with
    | null =>
      cases h
      exact ⟨_, _, rfl, by decide, rfl⟩
    | bool b => cases b <;> (cases h; exact ⟨_, _, rfl, by decide, rfl⟩)
    | number n => exact begins_number h (hrest n rfl)
    | string _ | array _ | object _ => cases h
  | broken _ _ => cases h

theorem eq_append_of_scanWord {letters s after : List Char} (h : scanWord letters s = .ok after) :
    s = letters ++ after := by
  fun_induction scanWord letters s with
  | case1 => cases h; rfl
  | case2 => cases h
  | case3 c letters s ih => rw [ih h]; rfl
  | case4 => cases h

/-- What is scanned as a lexeme is a spelling of it. -/
theorem isSpelled_of_scan {c : Char} {rest after : List Char} {l : Lexeme}
    (h : scan .shape c rest = .ok (l, after)) : ∃ s, l.IsSpelled s ∧ c :: rest = s ++ after := by
  unfold scan at h
  split at h
  case h_7 =>
    obtain ⟨⟨q, after'⟩, hq, heq⟩ := bind_eq_ok.1 h
    cases heq
    obtain ⟨t, ht, rfl⟩ := scanString_eq_ok_iff.1 hq
    exact ⟨_, ⟨t, ht, rfl⟩, by simp⟩
  case h_8 | h_9 | h_10 =>
    obtain ⟨after', hword, heq⟩ := bind_eq_ok.1 h
    cases heq
    rw [eq_append_of_scanWord hword]
    exact ⟨_, rfl, rfl⟩
  case h_11 =>
    split at h
    · obtain ⟨⟨n, after'⟩, hn, heq⟩ := bind_eq_ok.1 h
      cases heq
      exact isSpelled_of_scanNumeral hn
    · cases h
  all_goals
    cases h
    exact ⟨_, rfl, rfl⟩

end Json

end ConsentGate
