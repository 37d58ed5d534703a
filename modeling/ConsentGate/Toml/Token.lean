import ConsentGate.Text.Hex

/-!
# Tokens of settings text

A settings text is cut into blanks, line ends, comments, punctuation, quoted strings and atoms. An
atom is a run of any other characters; what it means depends on where it stands. A date followed by
one blank and a digit goes on with the time behind the blank.

Results:

* `length_token`: cutting off a token uses up its first character, so that the cutting ends.
-/

namespace ConsentGate.Toml

/-- A token. -/
inductive Token where
  /-- A run of blanks and tabs. -/
  | blank
  | newline
  | comment
  | dot
  | equals
  | comma
  | openSquare
  | closeSquare
  | openCurly
  | closeCurly
  /-- A quoted string with what it denotes. -/
  | quoted (multiline : Bool) (text : String)
  | atom (chars : List Char)
  deriving DecidableEq

/-! ## Character classes -/

/-- A blank within a line. -/
def isGap (c : Char) : Bool := c == ' ' || c == '\t'

/-- A character that no comment and no string may hold; a tab is none. -/
def isControl (c : Char) : Bool := (c < ' ' && c != '\t') || c == '\x7f'

/-- A character of an atom. -/
def isAtomChar (c : Char) : Bool :=
  !(isGap c || c == '\n' || c == '\r' || c == '#' || c == '.' || c == '=' || c == ',' || c == '[' ||
    c == ']' || c == '\x7b' || c == '\x7d' || c == '"' || c == '\'')

/-! ## Strings -/

/-- Where the reader of a string with escapes stands. -/
inductive Escaping where
  /-- Outside an escape. -/
  | none
  /-- Behind a backslash. -/
  | letter
  /-- Before so many hexadecimal digits, behind digits of some value. -/
  | digits (left value : Nat)
  /-- In the blank text behind a backslash that joins lines, with a line end seen or not. -/
  | joining (seen : Bool)
  deriving DecidableEq

/-- The character that a letter behind a backslash denotes. -/
def escaped? : Char → Option Char
  | 'b' => some '\x08'
  | 't' => some '\t'
  | 'n' => some '\n'
  | 'f' => some '\x0c'
  | 'r' => some '\r'
  | 'e' => some '\x1b'
  | '"' => some '"'
  | '\\' => some '\\'
  | _ => none

/-- The number of digits that a letter behind a backslash announces. -/
def digitCount? : Char → Option Nat
  | 'x' => some 2
  | 'u' => some 4
  | 'U' => some 8
  | _ => none

/-- The character with a number; a surrogate has none. -/
def charOf? (n : Nat) : Option Char := if n.isValidChar then some (.ofNat n) else none

/-- A string and the text behind its closing quotes, with one more character in front. -/
def withChar (c : Char) : List Char × List Char → List Char × List Char
  | (chars, after) => (c :: chars, after)

/-- The end of a string between triple quotes: up to two more quotes belong to the string. -/
def closing? (q : Char) : List Char → Option (List Char × List Char)
  | a :: b :: c :: rest =>
    if a = q ∧ b = q ∧ c = q then
      match rest with
      | d :: e :: rest' =>
        if d = q then if e = q then some ([q, q], rest') else some ([q], e :: rest')
        else some ([], rest)
      | [d] => if d = q then some ([q], []) else some ([], rest)
      | [] => some ([], [])
    else none
  | _ => none

/-- The string with escapes that a text starts with, behind the opening quotes, and what follows the
closing ones. -/
def scanBasic (multiline : Bool) : Escaping → List Char → Option (List Char × List Char)
  | _, [] => none
  | .letter, c :: rest =>
    match escaped? c, digitCount? c with
    | some d, _ => (scanBasic multiline .none rest).map (withChar d)
    | none, some count => scanBasic multiline (.digits count 0) rest
    | none, none =>
      if multiline && isGap c then scanBasic multiline (.joining false) rest
      else if multiline && (c == '\n' || (c == '\r' && rest.head? == some '\n')) then
        scanBasic multiline (.joining true) rest
      else none
  | .digits left value, c :: rest => do
    let next := 16 * value + (← Text.hexValue? c)
    if left ≤ 1 then (scanBasic multiline .none rest).map (withChar (← charOf? next))
    else scanBasic multiline (.digits (left - 1) next) rest
  | state, c :: rest =>
    if state != .none && (isGap c || c == '\n' || (c == '\r' && rest.head? == some '\n')) then
      scanBasic multiline (if isGap c then state else .joining true) rest
    else if state == .joining false then none
    else if c = '\\' then scanBasic multiline .letter rest
    else if multiline then
      match closing? '"' (c :: rest) with
      | some closed => some closed
      | none =>
        if isControl c && c != '\n' && !(c == '\r' && rest.head? == some '\n') then none
        else (scanBasic multiline .none rest).map (withChar c)
    else if c = '"' then some ([], rest)
    else if isControl c then none
    else (scanBasic multiline .none rest).map (withChar c)

/-- The string without escapes that a text starts with, behind the opening quotes, and what follows
the closing ones. -/
def scanLiteral (multiline : Bool) : List Char → Option (List Char × List Char)
  | [] => none
  | c :: rest =>
    if multiline then
      match closing? '\'' (c :: rest) with
      | some closed => some closed
      | none =>
        if isControl c && c != '\n' && !(c == '\r' && rest.head? == some '\n') then none
        else (scanLiteral multiline rest).map (withChar c)
    else if c = '\'' then some ([], rest)
    else if isControl c then none
    else (scanLiteral multiline rest).map (withChar c)

/-- A text without the line end that it starts with. -/
def dropNewline : List Char → List Char
  | '\n' :: rest => rest
  | '\r' :: '\n' :: rest => rest
  | s => s

/-- The quoted string behind a quote of one of two kinds; two more quotes open a string that may
span lines. -/
def scanQuoted (scan : Bool → List Char → Option (List Char × List Char)) (q : Char)
    (s : List Char) : Option (Token × List Char) :=
  match s with
  | a :: b :: rest =>
    if a = q ∧ b = q then
      (scan true (dropNewline rest)).map fun (chars, after) => (.quoted true (.ofList chars), after)
    else (scan false s).map fun (chars, after) => (.quoted false (.ofList chars), after)
  | _ => (scan false s).map fun (chars, after) => (.quoted false (.ofList chars), after)

/-! ## Atoms -/

/-- Ten characters in the shape of a date. -/
def isDateShaped (s : List Char) : Bool :=
  match s with
  | [y₁, y₂, y₃, y₄, d₁, m₁, m₂, d₂, t₁, t₂] =>
    [y₁, y₂, y₃, y₄, m₁, m₂, t₁, t₂].all Char.isDigit && d₁ == '-' && d₂ == '-'
  | _ => false

/-- The atom that a text starts with, and what follows it. -/
def scanAtom (s : List Char) : List Char × List Char :=
  let chars := s.takeWhile isAtomChar
  match s.dropWhile isAtomChar with
  | ' ' :: d :: rest =>
    if isDateShaped chars && d.isDigit then
      (chars ++ ' ' :: (d :: rest).takeWhile isAtomChar, (d :: rest).dropWhile isAtomChar)
    else (chars, ' ' :: d :: rest)
  | after => (chars, after)

/-! ## Tokens -/

/-- The token that a text starts with, and what follows it. -/
def token? (c : Char) (rest : List Char) : Option (Token × List Char) :=
  match c with
  | ' ' | '\t' => some (.blank, rest.dropWhile isGap)
  | '\n' => some (.newline, rest)
  | '\r' =>
    match rest with
    | '\n' :: after => some (.newline, after)
    | _ => none
  | '#' => some (.comment, rest.dropWhile (!isControl ·))
  | '.' => some (.dot, rest)
  | '=' => some (.equals, rest)
  | ',' => some (.comma, rest)
  | '[' => some (.openSquare, rest)
  | ']' => some (.closeSquare, rest)
  | '\x7b' => some (.openCurly, rest)
  | '\x7d' => some (.closeCurly, rest)
  | '"' => scanQuoted (scanBasic · .none) '"' rest
  | '\'' => scanQuoted scanLiteral '\'' rest
  | c => some (.atom (scanAtom (c :: rest)).1, (scanAtom (c :: rest)).2)

/-! ## Cutting uses up text -/

/-- The end of a string between triple quotes is three quotes, then those that belong to the string,
then the rest of the text. -/
theorem eq_append_of_closing {q : Char} {s quotes after : List Char}
    (h : closing? q s = some (quotes, after)) : s = q :: q :: q :: (quotes ++ after) := by
  match s with
  | [] | [_] | [_, _] => cases h
  | a :: b :: c :: rest =>
    obtain ⟨⟨rfl, rfl, rfl⟩, h⟩ := Option.ite_none_right_eq_some.1 h
    refine congrArg (fun rest => c :: c :: c :: rest) ?_
    match rest with
    | [] =>
      cases h
      rfl
    | [d] =>
      dsimp only at h
      by_cases hd : d = c
      · rw [if_pos hd] at h
        cases h
        rw [hd, List.append_nil]
      · rw [if_neg hd] at h
        cases h
        rfl
    | d :: e :: rest =>
      dsimp only at h
      by_cases hd : d = c
      · rw [if_pos hd] at h
        by_cases he : e = c
        · rw [if_pos he] at h
          cases h
          rw [hd, he, List.cons_append, List.singleton_append]
        · rw [if_neg he] at h
          cases h
          rw [hd, List.singleton_append]
      · rw [if_neg hd] at h
        cases h
        rfl

theorem length_closing {q : Char} {s chars after : List Char}
    (h : closing? q s = some (chars, after)) : after.length < s.length := by
  rw [eq_append_of_closing h]
  simp only [List.length_cons, List.length_append]
  omega

theorem length_map_withChar {c d : Char} {scanned : Option (List Char × List Char)}
    {rest chars after : List Char}
    (ih : ∀ {chars after : List Char}, scanned = some (chars, after) → after.length < rest.length)
    (h : scanned.map (withChar d) = some (chars, after)) : after.length < (c :: rest).length := by
  obtain ⟨⟨_, _⟩, hs, he⟩ := Option.map_eq_some_iff.1 h
  obtain ⟨-, rfl⟩ := Prod.mk.inj he
  exact Nat.lt_succ_of_lt (ih hs)

theorem length_scanLiteral {multiline : Bool} {s chars after : List Char}
    (h : scanLiteral multiline s = some (chars, after)) : after.length < s.length := by
  fun_induction scanLiteral multiline s generalizing chars after with
  | case1 => simp at h
  | case2 _ _ _ _ hc => exact length_closing (hc.trans h)
  | case3 => simp at h
  | case4 => exact length_map_withChar ‹_› h
  | case5 => simp at h; simp [h.2]
  | case6 => simp at h
  | case7 => exact length_map_withChar ‹_› h

theorem length_scanBasic {multiline : Bool} {state : Escaping} {s chars after : List Char}
    (h : scanBasic multiline state s = some (chars, after)) : after.length < s.length := by
  fun_induction scanBasic multiline state s generalizing chars after with
  | case1 => simp at h
  | case2 => exact length_map_withChar ‹_› h
  | case3 => exact Nat.lt_succ_of_lt (by solve_by_elim)
  | case4 => exact Nat.lt_succ_of_lt (by solve_by_elim)
  | case5 => exact Nat.lt_succ_of_lt (by solve_by_elim)
  | case6 => simp at h
  | case7 _ _ _ _ ih ih' =>
    obtain ⟨d, -, h⟩ := Option.bind_eq_some_iff.1 h
    simp only at h
    split at h
    · obtain ⟨_, -, h⟩ := Option.bind_eq_some_iff.1 h
      exact length_map_withChar ih h
    · exact Nat.lt_succ_of_lt (ih' d h)
  | case8 => exact Nat.lt_succ_of_lt (by solve_by_elim)
  | case9 => simp at h
  | case10 => exact Nat.lt_succ_of_lt (by solve_by_elim)
  | case11 => exact length_closing (Eq.trans ‹_› h)
  | case12 => simp at h
  | case13 => exact length_map_withChar ‹_› h
  | case14 => simp at h; simp [h.2]
  | case15 => simp at h
  | case16 => exact length_map_withChar ‹_› h

theorem length_dropNewline (s : List Char) : (dropNewline s).length ≤ s.length := by
  unfold dropNewline
  split
  · simp
  · simp only [List.length_cons]
    omega
  · exact Nat.le_refl _

theorem length_scanQuoted {scan : Bool → List Char → Option (List Char × List Char)} {q : Char}
    {s after : List Char} {t : Token}
    (hscan : ∀ {multiline : Bool} {s chars after : List Char},
      scan multiline s = some (chars, after) → after.length < s.length)
    (h : scanQuoted scan q s = some (t, after)) : after.length ≤ s.length := by
  unfold scanQuoted at h
  split at h
  · split at h
    · obtain ⟨⟨_, _⟩, hs, he⟩ := Option.map_eq_some_iff.1 h
      obtain ⟨-, rfl⟩ := Prod.mk.inj he
      have := Nat.lt_of_lt_of_le (hscan hs) (length_dropNewline _)
      simp
      omega
    · obtain ⟨⟨_, _⟩, hs, he⟩ := Option.map_eq_some_iff.1 h
      obtain ⟨-, rfl⟩ := Prod.mk.inj he
      exact Nat.le_of_lt (hscan hs)
  · obtain ⟨⟨_, _⟩, hs, he⟩ := Option.map_eq_some_iff.1 h
    obtain ⟨-, rfl⟩ := Prod.mk.inj he
    exact Nat.le_of_lt (hscan hs)

theorem length_scanAtom {c : Char} {rest : List Char} (hc : isAtomChar c = true) :
    (scanAtom (c :: rest)).2.length ≤ rest.length := by
  have hdrop : ((c :: rest).dropWhile isAtomChar).length ≤ rest.length := by
    simpa [hc] using (List.dropWhile_sublist isAtomChar).length_le
  unfold scanAtom
  split
  · rename_i d tail heq
    rw [heq] at hdrop
    have htail : ((d :: tail).dropWhile isAtomChar).length ≤ (d :: tail).length :=
      (List.dropWhile_sublist _).length_le
    simp only
    split
    · simp only [List.length_cons] at *
      omega
    · exact hdrop
  · exact hdrop

/-- Cutting off a token uses up at least its first character. -/
theorem length_token {c : Char} {rest after : List Char} {t : Token}
    (h : token? c rest = some (t, after)) : after.length ≤ rest.length := by
  unfold token? at h
  split at h
  case h_1 | h_2 =>
    obtain ⟨-, rfl⟩ := Prod.mk.inj (Option.some.inj h)
    exact (List.dropWhile_sublist _).length_le
  case h_4 =>
    split at h
    · obtain ⟨-, rfl⟩ := Prod.mk.inj (Option.some.inj h)
      simp
    · simp at h
  case h_5 =>
    obtain ⟨-, rfl⟩ := Prod.mk.inj (Option.some.inj h)
    exact (List.dropWhile_sublist _).length_le
  case h_13 => exact length_scanQuoted length_scanBasic h
  case h_14 => exact length_scanQuoted length_scanLiteral h
  case h_15 =>
    obtain ⟨-, rfl⟩ := Prod.mk.inj (Option.some.inj h)
    refine length_scanAtom ?_
    simp_all [isAtomChar, isGap]
  all_goals
    obtain ⟨-, rfl⟩ := Prod.mk.inj (Option.some.inj h)
    exact Nat.le_refl _

/-- The tokens of a text. -/
def tokens? : List Char → Option (List Token)
  | [] => some []
  | c :: rest =>
    match _h : token? c rest with
    | some (t, after) => (tokens? after).map (t :: ·)
    | none => none
termination_by s => s.length
decreasing_by
  have := length_token _h
  simp
  omega

end ConsentGate.Toml
