import ConsentGate.Toml.Section

/-!
# Reading written strings

Whatever characters a string has, some style writes it so that the reader cuts off one token with
that string. Between double quotes every string can be written, with escapes where they are needed;
between single quotes only one that the style holds. Quotes inside triple quotes are the hard case:
up to two of them may stand directly before the closing ones.

Results:

* `scanBasic_escapedChars`, `scanMultilineBasic_escapedChars`: every string is read back from
  between double quotes.
* `scanLiteral_append`, `scanMultilineLiteral_append`: a string without escapes is read back from
  between single quotes, if the style holds it.
* `begins_stringChars`: a written string is one token.
-/

namespace ConsentGate.Toml

/-! ## Escapes -/

theorem closing?_of_ne {q c : Char} (h : c ≠ q) (rest : List Char) :
    closing? q (c :: rest) = none := by
  match rest with
  | [] | [_] => rfl
  | _ :: _ :: _ => simp [closing?, h]

theorem scanBasic_plain {multiline : Bool} {c : Char} (hquote : c ≠ '"') (hbackslash : c ≠ '\\')
    (hcontrol : isControl c = false ∨ (multiline = true ∧ c = '\n')) (rest : List Char) :
    scanBasic multiline .none (c :: rest) = (scanBasic multiline .none rest).map (withChar c) := by
  cases multiline with
  | true =>
    rcases hcontrol with hcontrol | ⟨-, rfl⟩
    · simp [scanBasic, hbackslash, closing?_of_ne hquote, hcontrol]
    · simp [scanBasic, closing?_of_ne]
  | false => simp_all [scanBasic]

theorem scanBasic_letter {multiline : Bool} {letter c : Char} (h : escaped? letter = some c)
    (rest : List Char) :
    scanBasic multiline .none ('\\' :: letter :: rest) =
      (scanBasic multiline .none rest).map (withChar c) := by
  simp [scanBasic, h]

theorem scanBasic_digits {multiline : Bool} {digits : List Char} {value n : Nat} {c : Char}
    (hne : digits ≠ []) (hn : Text.hexFrom? value digits = some n) (hc : charOf? n = some c)
    (rest : List Char) :
    scanBasic multiline (.digits digits.length value) (digits ++ rest) =
      (scanBasic multiline .none rest).map (withChar c) := by
  induction digits generalizing value with
  | nil => exact absurd rfl hne
  | cons d digits ih =>
    obtain ⟨v, hv, hn⟩ := Option.bind_eq_some_iff.1 hn
    cases digits with
    | nil =>
      obtain rfl := Option.some.inj hn
      simp [scanBasic, hv, hc]
    | cons d' digits =>
      rw [← ih (List.cons_ne_nil _ _) hn, List.cons_append, scanBasic, hv]
      simp

theorem isControl_lt {c : Char} (h : isControl c = true) : c.toNat < 128 := by
  simp only [isControl, Bool.or_eq_true, Bool.and_eq_true, decide_eq_true_eq, beq_iff_eq] at h
  rcases h with ⟨h, -⟩ | rfl
  · exact Nat.lt_trans h (by decide)
  · decide

/-- A control character is read back from its digits. -/
theorem scanBasic_upperDigits {multiline : Bool} {c : Char} (h : isControl c = true)
    (rest : List Char) :
    scanBasic multiline .none ('\\' :: 'u' :: (upperDigits c.toNat ++ rest)) =
      (scanBasic multiline .none rest).map (withChar c) := by
  have hlt := isControl_lt h
  have hlength : (upperDigits c.toNat).length = 4 := by
    rw [upperDigits, List.length_map,
      Text.length_hexDigits (by decide) (Nat.lt_trans hlt (by decide))]
  have hread : Text.hexFrom? 0 (upperDigits c.toNat) = some c.toNat := by
    rw [upperDigits, Text.hexFrom?_map_toUpper]
    exact Text.hexNumber?_hexDigits 4 c.toNat
  have hchar : charOf? c.toNat = some c := by
    rw [charOf?, if_pos (show c.toNat.isValidChar from c.valid), Char.ofNat_toNat]
  rw [← scanBasic_digits (List.ne_nil_of_length_pos (by omega)) hread hchar rest, hlength]
  simp [scanBasic, escaped?, digitCount?]

/-- A character other than a quote is read back from between double quotes. -/
theorem scanBasic_escapedChar {multiline : Bool} {c : Char} (h : c ≠ '"') (rest : List Char) :
    scanBasic multiline .none (escapedChar multiline c ++ rest) =
      (scanBasic multiline .none rest).map (withChar c) := by
  unfold escapedChar
  split
  · exact scanBasic_letter rfl rest
  · exact scanBasic_letter rfl rest
  · cases multiline with
    | true => exact scanBasic_plain (by decide) (by decide) (.inr ⟨rfl, rfl⟩) rest
    | false => exact scanBasic_letter rfl rest
  · exact scanBasic_letter rfl rest
  · exact scanBasic_letter rfl rest
  · exact scanBasic_letter rfl rest
  · rename_i hbackslash
    split
    · rename_i hcontrol
      exact scanBasic_upperDigits hcontrol rest
    · rename_i hcontrol
      exact scanBasic_plain h hbackslash (.inl (Bool.eq_false_iff.2 hcontrol)) rest

/-! ## Double quotes -/

/-- Every string is read back from between double quotes. -/
theorem scanBasic_escapedChars (run : Nat) (s rest : List Char) :
    scanBasic false .none (escapedChars false run s ++ '"' :: rest) = some (s, rest) := by
  induction s generalizing run with
  | nil => simp [escapedChars, scanBasic]
  | cons c s ih =>
    by_cases hc : c = '"'
    · subst hc
      simp only [escapedChars, Bool.false_eq_true, false_and, if_true, if_false, List.cons_append]
      rw [scanBasic_letter rfl, ih]
      rfl
    · simp only [escapedChars, if_neg hc, List.append_assoc]
      rw [scanBasic_escapedChar hc, ih]
      rfl

/-! ## Triple quotes -/

/-- Up to two quotes in front of the closing ones belong to the string. Other text does not close
it, unless it starts with three quotes itself. -/
theorem closing?_append {q : Char} {t after : List Char} (ht : ∀ u, t ≠ q :: q :: q :: u)
    (hafter : after.head? ≠ some q) :
    closing? q (t ++ q :: q :: q :: after) =
      if t ∈ [[], [q], [q, q]] then some (t, after) else none := by
  match t with
  | [] =>
    match after with
    | [] => simp [closing?]
    | [d] => simp_all [closing?]
    | d :: _ :: _ => simp_all [closing?]
  | [a] =>
    by_cases ha : a = q
    · match after with
      | [] => simp [closing?, ha]
      | d :: _ => simp_all [closing?]
    · simp [closing?, ha]
  | [a, b] =>
    by_cases ha : a = q
    · by_cases hb : b = q
      · simp [closing?, ha, hb]
      · simp [closing?, ha, hb]
    · simp [closing?, ha]
  | a :: b :: c :: t =>
    have hne : ¬ (a = q ∧ b = q ∧ c = q) := by
      rintro ⟨rfl, rfl, rfl⟩
      exact ht t rfl
    simp [closing?, hne]

/-- Between double quotes a character starts no quote, and a line only if it is a line end. -/
theorem exists_escapedChar (multiline : Bool) {c : Char} (h : c ≠ '"') :
    ∃ d t, escapedChar multiline c = d :: t ∧ d ≠ '"' ∧ d ≠ '\r' ∧ (d = '\n' → c = '\n') := by
  unfold escapedChar
  split
  case h_3 => cases multiline <;> exact ⟨_, _, rfl, by decide⟩
  case h_7 hreturn _ =>
    split
    · exact ⟨_, _, rfl, by decide, by decide, fun hd => absurd hd (by decide)⟩
    · exact ⟨c, [], rfl, h, hreturn, id⟩
  all_goals exact ⟨_, _, rfl, by decide⟩

theorem eq_nil_of_escapedChars {multiline : Bool} {run : Nat} {s : List Char}
    (h : escapedChars multiline run s = []) : s = [] := by
  cases s with
  | nil => rfl
  | cons c s =>
    by_cases hc : c = '"'
    · simp only [escapedChars, if_pos hc] at h
      split at h <;> cases h
    · obtain ⟨d, t, hd, -⟩ := exists_escapedChar multiline hc
      simp [escapedChars, hc, hd] at h

/-- A quote in front comes from a quote, which is not the third one of a run. -/
theorem exists_of_escapedChars {run : Nat} {s t : List Char}
    (h : escapedChars true run s = '"' :: t) :
    run < 2 ∧ ∃ s', s = '"' :: s' ∧ t = escapedChars true (run + 1) s' := by
  cases s with
  | nil => cases h
  | cons c s =>
    by_cases hc : c = '"'
    · subst hc
      simp only [escapedChars, if_true, true_and] at h
      split at h
      · rename_i hrun
        exact ⟨hrun, s, rfl, (List.cons.inj h).2.symm⟩
      · exact absurd (List.cons.inj h).1 (by decide)
    · obtain ⟨d, u, hd, hne, -⟩ := exists_escapedChar true hc
      simp only [escapedChars, if_neg hc, hd, List.cons_append] at h
      exact absurd (List.cons.inj h).1 hne

/-- A run has no third quote that stands for itself. -/
theorem escapedChars_ne_triple (run : Nat) (s u : List Char) :
    '"' :: escapedChars true (run + 1) s ≠ '"' :: '"' :: '"' :: u := by
  intro hu
  obtain ⟨hrun, s', -, hs'⟩ := exists_of_escapedChars (List.cons.inj hu).2
  obtain ⟨hrun', -⟩ := exists_of_escapedChars hs'.symm
  omega

/-- The last quotes of a string stand for themselves. -/
theorem escapedChars_eq_of_last {run : Nat} {s : List Char}
    (h : '"' :: escapedChars true run s ∈ [[], ['"'], ['"', '"']]) :
    escapedChars true run s = s := by
  simp only [List.mem_cons, List.cons.injEq, true_and, List.not_mem_nil, or_false, reduceCtorEq,
    false_or] at h
  rcases h with hs | hs
  · rw [hs, eq_nil_of_escapedChars hs]
  · obtain ⟨-, s', rfl, hs'⟩ := exists_of_escapedChars hs
    rw [hs, eq_nil_of_escapedChars hs'.symm]

theorem scanBasic_quote (rest : List Char) :
    scanBasic true .none ('"' :: rest) =
      (closing? '"' ('"' :: rest)).or ((scanBasic true .none rest).map (withChar '"')) := by
  have hcontrol : isControl '"' = false := by decide
  rw [scanBasic]
  · cases closing? '"' ('"' :: rest) <;> simp [isGap, hcontrol]
  · intro heq
    cases heq
  · intro _ _ heq
    cases heq

/-- Every string is read back from between triple double quotes. -/
theorem scanMultilineBasic_escapedChars (run : Nat) (s : List Char) {after : List Char}
    (hafter : after.head? ≠ some '"') :
    scanBasic true .none (escapedChars true run s ++ '"' :: '"' :: '"' :: after) =
      some (s, after) := by
  induction s generalizing run with
  | nil =>
    have hclosing : closing? '"' ('"' :: '"' :: '"' :: after) = some ([], after) :=
      closing?_append (t := []) nofun hafter
    rw [escapedChars, List.nil_append, scanBasic_quote, hclosing]
    rfl
  | cons c s ih =>
    by_cases hc : c = '"'
    · subst hc
      simp only [escapedChars, if_true, true_and]
      split
      · -- the quote stands for itself, and may be one of the last two
        have hclosing := closing?_append (escapedChars_ne_triple run s) hafter
        rw [List.cons_append, scanBasic_quote, ← List.cons_append, hclosing, ih]
        split
        · rename_i hlast
          rw [escapedChars_eq_of_last hlast]
          rfl
        · rfl
      · rw [List.cons_append, List.cons_append, scanBasic_letter rfl, ih]
        rfl
    · simp only [escapedChars, if_neg hc, List.append_assoc]
      rw [scanBasic_escapedChar hc, ih]
      rfl

/-! ## Single quotes -/

/-- A string without escapes, quotes and line ends is read back from between single quotes. -/
theorem scanLiteral_append {s : List Char} (hquote : '\'' ∉ s)
    (hcontrol : ∀ c ∈ s, isControl c = false) (rest : List Char) :
    scanLiteral false (s ++ '\'' :: rest) = some (s, rest) := by
  induction s with
  | nil => simp [scanLiteral]
  | cons c s ih =>
    have hc : c ≠ '\'' := fun heq => hquote (heq ▸ List.mem_cons_self)
    rw [List.cons_append, scanLiteral, if_neg Bool.false_ne_true, if_neg hc,
      if_neg (by simp [hcontrol c List.mem_cons_self]),
      ih (fun h => hquote (List.mem_cons_of_mem _ h))
        fun d hd => hcontrol d (List.mem_cons_of_mem _ hd)]
    rfl

theorem le_longestRun (q : Char) (run : Nat) (s : List Char) : run ≤ longestRun q run s := by
  induction s generalizing run with
  | nil => exact Nat.le_refl _
  | cons c s ih =>
    unfold longestRun
    split
    · exact Nat.le_of_succ_le (ih (run + 1))
    · exact Nat.le_max_left _ _

theorem longestRun_mono (q : Char) {run run' : Nat} (h : run ≤ run') (s : List Char) :
    longestRun q run s ≤ longestRun q run' s := by
  induction s generalizing run run' with
  | nil => exact h
  | cons c s ih =>
    unfold longestRun
    split
    · exact ih (Nat.succ_le_succ h)
    · omega

/-- A part of a string has no longer run. -/
theorem longestRun_tail (q c : Char) (s : List Char) :
    longestRun q 0 s ≤ longestRun q 0 (c :: s) := by
  rw [longestRun]
  split
  · exact longestRun_mono q (Nat.zero_le _) s
  · exact Nat.le_max_right _ _

/-- A string without escapes and runs of three quotes is read back from between triple single
quotes. -/
theorem scanMultilineLiteral_append {s after : List Char} (hrun : longestRun '\'' 0 s ≤ 2)
    (hcontrol : ∀ c ∈ s, needsEscape c = false) (hafter : after.head? ≠ some '\'') :
    scanLiteral true (s ++ '\'' :: '\'' :: '\'' :: after) = some (s, after) := by
  induction s with
  | nil =>
    have hclosing : closing? '\'' ('\'' :: '\'' :: '\'' :: after) = some ([], after) :=
      closing?_append (t := []) nofun hafter
    rw [List.nil_append, scanLiteral, if_pos rfl, hclosing]
  | cons c s ih =>
    have htriple : ∀ u, c :: s ≠ '\'' :: '\'' :: '\'' :: u := by
      rintro u hu
      have : 3 ≤ longestRun '\'' 0 (c :: s) := hu ▸ le_longestRun '\'' 3 u
      omega
    have hclosing := closing?_append htriple hafter
    rw [List.cons_append] at hclosing ⊢
    rw [scanLiteral, if_pos rfl, hclosing]
    by_cases hlast : c :: s ∈ [[], ['\''], ['\'', '\'']]
    · rw [if_pos hlast]
    · have hc : (isControl c && c != '\n') = false := hcontrol c List.mem_cons_self
      rw [if_neg hlast]
      simp only [hc, Bool.false_and, Bool.false_eq_true, if_false]
      rw [ih (Nat.le_trans (longestRun_tail _ c s) hrun)
        fun d hd => hcontrol d (List.mem_cons_of_mem _ hd)]
      rfl

/-! ## Tokens -/

/-- A text starts with a token, and `rest` follows it. -/
def Begins (s : List Char) (t : Token) (rest : List Char) : Prop :=
  ∃ c u, s = c :: u ∧ token? c u = some (t, rest)

theorem tokens?_of_begins {s rest : List Char} {t : Token} (h : Begins s t rest) :
    tokens? s = (tokens? rest).map (t :: ·) := by
  obtain ⟨c, u, rfl, htoken⟩ := h
  rw [tokens?]
  split
  · rename_i heq
    obtain ⟨rfl, rfl⟩ := Prod.mk.inj (Option.some.inj (htoken.symm.trans heq))
    rfl
  · rename_i heq
    cases htoken.symm.trans heq

theorem scanQuoted_single (scan : Bool → List Char → Option (List Char × List Char)) {q : Char}
    {s t after : List Char} (hs : ∀ u, s ≠ q :: q :: u) (h : scan false s = some (t, after)) :
    scanQuoted scan q s = some (.quoted false (.ofList t), after) := by
  unfold scanQuoted
  split
  · rename_i a b u
    rw [if_neg (by rintro ⟨rfl, rfl⟩; exact hs u rfl), h]
    rfl
  · rw [h]
    rfl

theorem scanQuoted_triple (scan : Bool → List Char → Option (List Char × List Char)) {q : Char}
    {s t after : List Char} (h : scan true (dropNewline s) = some (t, after)) :
    scanQuoted scan q (q :: q :: s) = some (.quoted true (.ofList t), after) := by
  rw [scanQuoted, if_pos ⟨rfl, rfl⟩, h]
  rfl

/-- Behind triple quotes only the line end that is put there is passed over. -/
theorem dropNewline_start {s body : List Char}
    (h : ∀ c, body.head? = some c → c ≠ '\r' ∧ (c = '\n' → '\n' ∈ s)) :
    dropNewline ((if s.contains '\n' then ['\n'] else []) ++ body) = body := by
  split
  · rfl
  · rename_i hnone
    rw [List.nil_append]
    unfold dropNewline
    split
    · exact absurd ((h _ rfl).2 rfl) (by simpa using hnone)
    · exact absurd rfl (h _ rfl).1
    · rfl

theorem token?_double (s : List Char) : token? '"' s = scanQuoted (scanBasic · .none) '"' s := rfl

theorem token?_single (s : List Char) : token? '\'' s = scanQuoted scanLiteral '\'' s := rfl

/-- Whether a string in a style may span lines. -/
def Style.isMultiline : Style → Bool
  | basic | literal => false
  | multilineBasic | multilineLiteral => true

/-- A style with escapes writes every string, one without only those that it holds. -/
def Style.Writes (style : Style) (s : List Char) : Prop :=
  match style with
  | basic | multilineBasic => True
  | literal | multilineLiteral => style.holds s = true

/-- Between single double quotes a string starts no quote. -/
theorem escapedChars_ne_quote (run : Nat) (s t : List Char) :
    escapedChars false run s ≠ '"' :: t := by
  cases s with
  | nil => exact nofun
  | cons c s =>
    by_cases hc : c = '"'
    · simp [escapedChars, hc]
    · obtain ⟨d, u, hd, hne, -⟩ := exists_escapedChar false hc
      simp [escapedChars, hc, hd, hne]

theorem head?_escapedChars {s : List Char} {c : Char} (rest : List Char)
    (h : (escapedChars true 0 s ++ '"' :: rest).head? = some c) :
    c ≠ '\r' ∧ (c = '\n' → '\n' ∈ s) := by
  cases s with
  | nil =>
    obtain rfl := Option.some.inj h
    exact ⟨by decide, nofun⟩
  | cons d s =>
    by_cases hd : d = '"'
    · subst hd
      obtain rfl := Option.some.inj h
      exact ⟨by decide, nofun⟩
    · obtain ⟨e, t, he, -, hreturn, hline⟩ := exists_escapedChar true hd
      simp only [escapedChars, if_neg hd, he, List.cons_append, List.head?_cons] at h
      obtain rfl := Option.some.inj h
      exact ⟨hreturn, fun heq => hline heq ▸ List.mem_cons_self⟩

theorem begins_basic (s : List Char) {rest : List Char} (hrest : rest.head? ≠ some '"') :
    Begins (stringChars .basic s ++ rest) (.quoted false (.ofList s)) rest := by
  refine ⟨'"', escapedChars false 0 s ++ '"' :: rest, by simp [stringChars],
    (token?_double _).trans (scanQuoted_single _ ?_ (scanBasic_escapedChars 0 s rest))⟩
  -- no second quote behind the first one: the string starts with none, and none comes after it
  intro u hu
  cases hs : escapedChars false 0 s with
  | nil =>
    rw [hs] at hu
    exact hrest (by rw [(List.cons.inj hu).2]; rfl)
  | cons d t =>
    rw [hs] at hu
    exact escapedChars_ne_quote 0 s t ((List.cons.inj hu).1 ▸ hs)

theorem begins_literal {s : List Char} (h : Style.literal.holds s = true) {rest : List Char}
    (hrest : rest.head? ≠ some '\'') :
    Begins (stringChars .literal s ++ rest) (.quoted false (.ofList s)) rest := by
  simp only [Style.holds, Bool.and_eq_true, Bool.not_eq_true', List.any_eq_false,
    List.contains_eq_mem, decide_eq_false_iff_not] at h
  obtain ⟨hescape, hquote, hline⟩ := h
  have hcontrol : ∀ c ∈ s, isControl c = false := by
    intro c hc
    have hne : c ≠ '\n' := fun heq => hline (heq ▸ hc)
    simpa [needsEscape, hne] using hescape c hc
  refine ⟨'\'', s ++ '\'' :: rest, by simp [stringChars],
    (token?_single _).trans (scanQuoted_single _ ?_ (scanLiteral_append hquote hcontrol rest))⟩
  intro u hu
  cases s with
  | nil => exact hrest (by rw [(List.cons.inj hu).2]; rfl)
  | cons d t => exact hquote ((List.cons.inj hu).1 ▸ List.mem_cons_self)

theorem begins_multilineBasic (s : List Char) {rest : List Char} (hrest : rest.head? ≠ some '"') :
    Begins (stringChars .multilineBasic s ++ rest) (.quoted true (.ofList s)) rest := by
  refine ⟨'"', '"' :: '"' :: ((if s.contains '\n' then ['\n'] else []) ++
    (escapedChars true 0 s ++ '"' :: '"' :: '"' :: rest)), by simp [stringChars, List.replicate],
    (token?_double _).trans (scanQuoted_triple _ ?_)⟩
  rw [dropNewline_start fun c hc => head?_escapedChars _ hc]
  exact scanMultilineBasic_escapedChars 0 s hrest

theorem begins_multilineLiteral {s : List Char} (h : Style.multilineLiteral.holds s = true)
    {rest : List Char} (hrest : rest.head? ≠ some '\'') :
    Begins (stringChars .multilineLiteral s ++ rest) (.quoted true (.ofList s)) rest := by
  simp only [Style.holds, Bool.and_eq_true, Bool.not_eq_true', List.any_eq_false,
    decide_eq_true_eq] at h
  obtain ⟨hescape, hrun⟩ := h
  refine ⟨'\'', '\'' :: '\'' :: ((if s.contains '\n' then ['\n'] else []) ++
    (s ++ '\'' :: '\'' :: '\'' :: rest)), by simp [stringChars, List.replicate],
    (token?_single _).trans (scanQuoted_triple _ ?_)⟩
  rw [dropNewline_start]
  · exact scanMultilineLiteral_append hrun (by simpa using hescape) hrest
  · intro c hc
    cases s with
    | nil =>
      obtain rfl := Option.some.inj hc
      exact ⟨by decide, nofun⟩
    | cons d s =>
      obtain rfl := Option.some.inj hc
      refine ⟨?_, fun heq => heq ▸ List.mem_cons_self⟩
      rintro rfl
      exact hescape _ List.mem_cons_self (by decide)

/-- A written string is one token. -/
theorem begins_stringChars {style : Style} {s : List Char} (h : style.Writes s) {rest : List Char}
    (hdouble : rest.head? ≠ some '"') (hsingle : rest.head? ≠ some '\'') :
    Begins (stringChars style s ++ rest) (.quoted style.isMultiline (.ofList s)) rest := by
  cases style with
  | basic => exact begins_basic s hdouble
  | literal => exact begins_literal h hsingle
  | multilineBasic => exact begins_multilineBasic s hdouble
  | multilineLiteral => exact begins_multilineLiteral h hsingle

theorem Style.writes_of_find? {styles : List Style} {s : List Char} {style : Style}
    (h : styles.find? (·.holds s) = some style) : style.Writes s := by
  have hholds := List.find?_some (p := fun style : Style => style.holds s) h
  cases style with
  | basic | multilineBasic => trivial
  | literal | multilineLiteral => exact hholds

theorem valueStyle_writes (s : List Char) : (valueStyle s).Writes s := by
  unfold valueStyle
  split
  · exact Style.writes_of_find? ‹_›
  · split <;> trivial

theorem keyStyle_writes (s : List Char) : (keyStyle s).Writes s := by
  unfold keyStyle
  split
  · exact Style.writes_of_find? ‹_›
  · trivial

/-- A quoted key stays on one line. -/
theorem isMultiline_keyStyle (s : List Char) : (keyStyle s).isMultiline = false := by
  unfold keyStyle
  split
  · rename_i style hstyle
    have hmem := List.mem_of_find?_eq_some hstyle
    simp only [List.mem_cons, List.not_mem_nil, or_false] at hmem
    rcases hmem with rfl | rfl <;> rfl
  · rfl

end ConsentGate.Toml
