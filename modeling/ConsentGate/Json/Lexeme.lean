import ConsentGate.Json.Basic
import ConsentGate.Json.Fault
import ConsentGate.Outcome

/-!
# Lexemes of JSON text

A text is cut into brackets, commas, colons, words, numbers and strings; white space between them is
dropped. Each lexeme keeps the text from its first character on, which is where a reader reports a
misplaced one. A lexeme that is cut short ends the list.

Results:

* `length_scan`: scanning a lexeme uses up its first character, so that the cutting ends.
-/

namespace ConsentGate.Json

/-- What a reader checks beyond the shape of a document. -/
inductive Rigor where
  /-- Nothing. -/
  | shape
  /-- Escapes of code units come in pairs where they must, numbers are in range, and brackets are
  nested at most 127 deep. -/
  | value
  deriving DecidableEq

/-- A lexeme. -/
inductive Lexeme where
  | openBracket
  | closeBracket
  | openBrace
  | closeBrace
  | comma
  | colon
  | string (q : Quoted)
  /-- A word or a number, as the document that it denotes. -/
  | atom (value : Json)
  /-- A lexeme that is cut short. -/
  | broken (isString : Bool) (fault : Fault)

/-- A lexeme and the text from its first character on. -/
structure Entry where
  lexeme : Lexeme
  place : List Char

/-! ## Strings -/

/-- The code unit of four hexadecimal digits. -/
def unit? (a b c d : Char) : Option UInt16 := (Text.hexNumber? [a, b, c, d]).map UInt16.ofNat

/-- The fault of an escape without four hexadecimal digits: four bytes are looked at, if there are
so many. -/
def badUnit (rest : List Char) : Fault :=
  if (String.ofList rest).utf8ByteSize < 4 then .atStart .endInString []
  else ⟨.invalidEscape, rest, 4⟩

/-- The string that a text starts with, behind the opening quote, and what follows its closing
quote. When `owing`, the first unit of a pair came just before. -/
def scanString (rigor : Rigor) (owing : Bool) : List Char → Except Fault (Quoted × List Char)
  | [] => .error (.atStart .endInString [])
  | '\\' :: 'u' :: a :: b :: c :: d :: rest =>
    match unit? a b c d with
    | none => .error (badUnit (a :: b :: c :: d :: rest))
    | some code =>
      if rigor = .value && isTrailing code != owing then .error ⟨.loneSurrogate, rest, 0⟩
      else do
        let (q, after) ← scanString rigor (rigor = .value && isLeading code) rest
        return (.unit code :: q, after)
  | '\\' :: 'u' :: rest => .error (badUnit rest)
  | ['\\'] => .error (.atStart .endInString [])
  | '\\' :: c :: rest =>
    if owing then .error (.atStart .unpairedEscape (c :: rest))
    else
      match Escape.ofLetter? c with
      | none => .error (.atStart .invalidEscape (c :: rest))
      | some e => do
        let (q, after) ← scanString rigor false rest
        return (.short e :: q, after)
  | c :: rest =>
    if owing then .error (.atStart .unpairedEscape (c :: rest))
    else if c = '"' then .ok ([], rest)
    else if c < ' ' then .error (.atStart .controlCharacter (c :: rest))
    else do
      let (q, after) ← scanString rigor false rest
      return (.plain c :: q, after)

/-! ## Numbers and words -/

/-- The digits that a text starts with, at least one, and what follows them. -/
def scanDigits (s : List Char) : Except Fault (List Char × List Char) :=
  match s.takeWhile Char.isDigit with
  | [] => .error (.atStart (if s.isEmpty then .endInValue else .invalidNumber) s)
  | digits => .ok (digits, s.dropWhile Char.isDigit)

/-- The digits before the point: one zero, or digits that do not start with one. -/
def scanWhole (s : List Char) : Except Fault (List Char × List Char) := do
  let (digits, after) ← scanDigits s
  match digits with
  | '0' :: _ :: _ => .error (.atStart .invalidNumber (s.drop 1))
  | _ => return (digits, after)

/-- The fraction that a text starts with, if it starts with a point. -/
def scanFraction : List Char → Except Fault (Option (List Char) × List Char)
  | '.' :: s => do
    let (digits, after) ← scanDigits s
    return (some digits, after)
  | s => .ok (none, s)

/-- The sign that a text starts with: `true` for minus. -/
def scanSign : List Char → Bool × List Char
  | '-' :: s => (true, s)
  | '+' :: s => (false, s)
  | s => (false, s)

/-- The exponent that a text starts with, if it starts with the letter for it. -/
def scanExponent : List Char → Except Fault (Option Exponent × List Char)
  | c :: s =>
    if c = 'e' ∨ c = 'E' then do
      let (digits, after) ← scanDigits (scanSign s).2
      return (some ⟨(scanSign s).1, digits⟩, after)
    else .ok (none, c :: s)
  | [] => .ok (none, [])

/-- The minus sign that a text may start with. -/
def scanMinus : List Char → Bool × List Char
  | '-' :: s => (true, s)
  | s => (false, s)

/-- The number that a text starts with. -/
def scanNumeral (s : List Char) : Except Fault (Numeral × List Char) := do
  let (whole, s₁) ← scanWhole (scanMinus s).2
  let (fraction, s₂) ← scanFraction s₁
  let (exponent, s₃) ← scanExponent s₂
  return ({ negative := (scanMinus s).1, whole, fraction, exponent }, s₃)

/-- A number within the range that the reader asks for. -/
def inRange (rigor : Rigor) (n : Numeral) (after : List Char) : Except Fault Numeral :=
  match rigor, n.outOfRange? with
  | .value, some read =>
    .error ⟨.numberOutOfRange, ((n.exponent.elim [] Exponent.digits).drop read) ++ after, 0⟩
  | _, _ => .ok n

/-- What follows a word, whose first letter has been read. -/
def scanWord : List Char → List Char → Except Fault (List Char)
  | [], s => .ok s
  | _ :: _, [] => .error (.atStart .endInValue [])
  | c :: letters, d :: s =>
    if c = d then scanWord letters s else .error (.atStart .expectedWord (d :: s))

/-! ## Lexemes -/

/-- The characters that may stand between lexemes. -/
def isSpace (c : Char) : Bool := c == ' ' || c == '\n' || c == '\t' || c == '\r'

/-- The lexeme that a text starts with, and what follows it. -/
def scan (rigor : Rigor) (c : Char) (rest : List Char) : Except Fault (Lexeme × List Char) :=
  match c with
  | '[' => .ok (.openBracket, rest)
  | ']' => .ok (.closeBracket, rest)
  | '\x7b' => .ok (.openBrace, rest)
  | '\x7d' => .ok (.closeBrace, rest)
  | ',' => .ok (.comma, rest)
  | ':' => .ok (.colon, rest)
  | '"' => do
    let (q, after) ← scanString rigor false rest
    return (.string q, after)
  | 'n' => do return (.atom .null, ← scanWord ['u', 'l', 'l'] rest)
  | 't' => do return (.atom (.bool true), ← scanWord ['r', 'u', 'e'] rest)
  | 'f' => do return (.atom (.bool false), ← scanWord ['a', 'l', 's', 'e'] rest)
  | c =>
    if c = '-' || c.isDigit then do
      let (n, after) ← scanNumeral (c :: rest)
      return (.atom (.number (← inRange rigor n after)), after)
    else .error (.atStart .expectedValue (c :: rest))

/-! ## Scanning uses up text -/

theorem length_scanString {rigor : Rigor} {owing : Bool} {s after : List Char} {q : Quoted}
    (h : scanString rigor owing s = .ok (q, after)) : after.length < s.length := by
  fun_induction scanString rigor owing s generalizing q after with
  | case1 => simp at h
  | case2 => simp at h
  | case3 => simp at h
  | case4 =>
    rename_i ih
    obtain ⟨⟨_, _⟩, hs, he⟩ := bind_eq_ok.1 h
    obtain ⟨-, rfl⟩ := Prod.mk.inj (Except.ok.inj he)
    have := ih hs
    simp
    omega
  | case5 => simp at h
  | case6 => simp at h
  | case7 => simp at h
  | case8 => simp at h
  | case9 =>
    rename_i ih
    obtain ⟨⟨_, _⟩, hs, he⟩ := bind_eq_ok.1 h
    obtain ⟨-, rfl⟩ := Prod.mk.inj (Except.ok.inj he)
    have := ih hs
    simp
    omega
  | case10 => simp at h
  | case11 => simp at h; simp [h.2]
  | case12 => simp at h
  | case13 =>
    rename_i ih
    obtain ⟨⟨_, _⟩, hs, he⟩ := bind_eq_ok.1 h
    obtain ⟨-, rfl⟩ := Prod.mk.inj (Except.ok.inj he)
    have := ih hs
    simp
    omega

theorem length_scanDigits {s digits after : List Char} (h : scanDigits s = .ok (digits, after)) :
    after.length < s.length := by
  unfold scanDigits at h
  split at h
  · simp at h
  · rename_i hne
    obtain ⟨-, rfl⟩ := Prod.mk.inj (Except.ok.inj h)
    have hlength :=
      congrArg List.length (List.takeWhile_append_dropWhile (p := Char.isDigit) (l := s))
    have hpos : 0 < (s.takeWhile Char.isDigit).length := List.length_pos_iff.2 hne
    rw [List.length_append] at hlength
    omega

theorem length_scanWhole {s digits after : List Char} (h : scanWhole s = .ok (digits, after)) :
    after.length < s.length := by
  obtain ⟨⟨_, _⟩, hs, he⟩ := bind_eq_ok.1 h
  simp only at he
  split at he
  · simp at he
  · obtain ⟨-, rfl⟩ := Prod.mk.inj (Except.ok.inj he)
    exact length_scanDigits hs

theorem length_scanFraction {s after : List Char} {f : Option (List Char)}
    (h : scanFraction s = .ok (f, after)) : after.length ≤ s.length := by
  unfold scanFraction at h
  split at h
  · obtain ⟨⟨_, _⟩, hs, he⟩ := bind_eq_ok.1 h
    obtain ⟨-, rfl⟩ := Prod.mk.inj (Except.ok.inj he)
    have := length_scanDigits hs
    simp
    omega
  · obtain ⟨-, rfl⟩ := Prod.mk.inj (Except.ok.inj h)
    exact Nat.le_refl _

theorem length_scanSign (s : List Char) : (scanSign s).2.length ≤ s.length := by
  unfold scanSign
  split <;> simp

theorem length_scanExponent {s after : List Char} {e : Option Exponent}
    (h : scanExponent s = .ok (e, after)) : after.length ≤ s.length := by
  cases s with
  | nil =>
    obtain ⟨-, rfl⟩ := Prod.mk.inj (Except.ok.inj h)
    exact Nat.le_refl _
  | cons c s =>
    simp only [scanExponent] at h
    split at h
    · obtain ⟨⟨_, _⟩, hs, he⟩ := bind_eq_ok.1 h
      obtain ⟨-, rfl⟩ := Prod.mk.inj (Except.ok.inj he)
      have := length_scanDigits hs
      have := length_scanSign s
      simp
      omega
    · obtain ⟨-, rfl⟩ := Prod.mk.inj (Except.ok.inj h)
      exact Nat.le_refl _

theorem length_scanMinus (s : List Char) : (scanMinus s).2.length ≤ s.length := by
  unfold scanMinus
  split <;> simp

theorem length_scanNumeral {s after : List Char} {n : Numeral}
    (h : scanNumeral s = .ok (n, after)) : after.length < s.length := by
  obtain ⟨⟨_, s₁⟩, h₁, h⟩ := bind_eq_ok.1 h
  obtain ⟨⟨_, s₂⟩, h₂, h⟩ := bind_eq_ok.1 h
  obtain ⟨⟨_, s₃⟩, h₃, h⟩ := bind_eq_ok.1 h
  obtain ⟨-, rfl⟩ := Prod.mk.inj (Except.ok.inj h)
  have := length_scanMinus s
  have := length_scanWhole h₁
  have := length_scanFraction h₂
  have := length_scanExponent h₃
  simp only at *
  omega

theorem length_scanWord {letters s after : List Char} (h : scanWord letters s = .ok after) :
    after.length ≤ s.length := by
  fun_induction scanWord letters s with
  | case1 => obtain rfl := Except.ok.inj h; exact Nat.le_refl _
  | case2 => simp at h
  | case3 => rename_i ih; have := ih h; simp; omega
  | case4 => simp at h

/-- Scanning a lexeme uses up at least its first character. -/
theorem length_scan {rigor : Rigor} {c : Char} {rest after : List Char} {l : Lexeme}
    (h : scan rigor c rest = .ok (l, after)) : after.length ≤ rest.length := by
  unfold scan at h
  split at h
  case h_7 =>
    obtain ⟨⟨_, _⟩, hs, he⟩ := bind_eq_ok.1 h
    obtain ⟨-, rfl⟩ := Prod.mk.inj (Except.ok.inj he)
    exact Nat.le_of_lt (length_scanString hs)
  case h_8 | h_9 | h_10 =>
    obtain ⟨_, hs, he⟩ := bind_eq_ok.1 h
    obtain ⟨-, rfl⟩ := Prod.mk.inj (Except.ok.inj he)
    exact length_scanWord hs
  case h_11 =>
    split at h
    · obtain ⟨⟨_, _⟩, hs, he⟩ := bind_eq_ok.1 h
      obtain ⟨_, _, he⟩ := bind_eq_ok.1 he
      obtain ⟨-, rfl⟩ := Prod.mk.inj (Except.ok.inj he)
      have := length_scanNumeral hs
      simp at this
      omega
    · simp at h
  all_goals
    obtain ⟨-, rfl⟩ := Prod.mk.inj (Except.ok.inj h)
    exact Nat.le_refl _

/-- The lexemes of a text; one that is cut short is the last. -/
def lexemes (rigor : Rigor) : List Char → List Entry
  | [] => []
  | c :: rest =>
    if isSpace c then lexemes rigor rest
    else
      match _h : scan rigor c rest with
      | .ok (l, after) => ⟨l, c :: rest⟩ :: lexemes rigor after
      | .error fault => [⟨.broken (c = '"') fault, c :: rest⟩]
termination_by s => s.length
decreasing_by
  · simp
  · have := length_scan _h
    simp
    omega

end ConsentGate.Json
