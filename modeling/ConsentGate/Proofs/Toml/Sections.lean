import ConsentGate.Decimal.Digits
import ConsentGate.Proofs.Toml.Quoting
import ConsentGate.Toml.Document

/-!
# Reading written sections

Each written section has its tokens, and each list of such tokens its statements: a header, and a
value for each entry. Both are read back from text, first the tokens from the characters and then
the statements from the tokens, piece by piece and whatever comes behind a piece.

Results:

* `tokens?_render`: the tokens of written sections are read back.
* `statements?_tokens`: so are their statements.
-/

namespace ConsentGate.Toml

open Decimal (IsDigits)

/-! ## Characters to tokens -/

/-- Some characters are cut into some tokens, in front of every text with a property. -/
def Cuts (ends : List Char → Prop) (s : List Char) (ts : List Token) : Prop :=
  ∀ rest, ends rest → tokens? (s ++ rest) = (tokens? rest).map (ts ++ ·)

theorem Cuts.of_begins {ends : List Char → Prop} {s : List Char} {t : Token}
    (h : ∀ rest, ends rest → Begins (s ++ rest) t rest) : Cuts ends s [t] :=
  fun rest hrest => tokens?_of_begins (h rest hrest)

theorem Cuts.append {ends ends' : List Char → Prop} {s s' : List Char} {ts ts' : List Token}
    (h : Cuts ends s ts) (h' : Cuts ends' s' ts') (hends : ∀ rest, ends' rest → ends (s' ++ rest)) :
    Cuts ends' (s ++ s') (ts ++ ts') := by
  intro rest hrest
  rw [List.append_assoc, h _ (hends rest hrest), h' rest hrest, Option.map_map]
  congr 1
  funext us
  exact (List.append_assoc ts ts' us).symm

/-- What holds in front of each piece of a text, and of what is behind it, holds in front of all. -/
theorem ends_flatMap {α : Type} {ends : List Char → Prop} {chars : α → List Char}
    (hends : ∀ a rest, ends (chars a ++ rest)) (as : List α) {rest : List Char}
    (hrest : ends rest) : ends (as.flatMap chars ++ rest) := by
  cases as with
  | nil => exact hrest
  | cons a as =>
    rw [List.flatMap_cons, List.append_assoc]
    exact hends a _

theorem Cuts.flatMap {α : Type} {ends : List Char → Prop} {chars : α → List Char}
    {tokens : α → List Token} {as : List α} (h : ∀ a ∈ as, Cuts ends (chars a) (tokens a))
    (hends : ∀ a rest, ends (chars a ++ rest)) :
    Cuts ends (as.flatMap chars) (as.flatMap tokens) := by
  induction as with
  | nil =>
    intro rest _
    simp
  | cons a as ih =>
    exact Cuts.append (h a List.mem_cons_self) (ih fun b hb => h b (List.mem_cons_of_mem _ hb))
      fun rest hrest => ends_flatMap hends as hrest

/-- A text that goes on with no atom and no string: punctuation, a line end, or a blank in front of
an equals sign. -/
inductive Ends : List Char → Prop
  | mark {c : Char} (h : c ∈ ['.', ',', ']', '\n']) (rest : List Char) : Ends (c :: rest)
  | equals (rest : List Char) : Ends (' ' :: '=' :: rest)

theorem Ends.head? {rest : List Char} (h : Ends rest) :
    rest.head? ≠ some '"' ∧ rest.head? ≠ some '\'' ∧
      ∀ c, rest.head? = some c → isAtomChar c = false := by
  cases h with
  | mark h rest =>
    simp only [List.mem_cons, List.not_mem_nil, or_false] at h
    rcases h with rfl | rfl | rfl | rfl <;>
      exact ⟨by simp, by simp, by rintro _ ⟨⟩; decide⟩
  | equals rest => exact ⟨by simp, by simp, by rintro _ ⟨⟩; decide⟩

theorem token?_of_isAtomChar {c : Char} (h : isAtomChar c = true) (rest : List Char) :
    token? c rest = some (.atom (scanAtom (c :: rest)).1, (scanAtom (c :: rest)).2) := by
  unfold token?
  split
  case h_15 => rfl
  all_goals exact absurd h (by decide)

theorem begins_atom {s rest : List Char} (hne : s ≠ []) (hs : ∀ c ∈ s, isAtomChar c = true)
    (hrest : Ends rest) : Begins (s ++ rest) (.atom s) rest := by
  have hhead := hrest.head?.2.2
  have hscan : scanAtom (s ++ rest) = (s, rest) := by
    rw [scanAtom, Text.takeWhile_append_of_stops hs hhead, Text.dropWhile_append_of_stops hs hhead]
    -- no digit behind the blank, so that the atom is no date in front of a time
    cases hrest with
    | mark h rest =>
      simp only [List.mem_cons, List.not_mem_nil, or_false] at h
      rcases h with rfl | rfl | rfl | rfl <;> rfl
    | equals rest =>
      have hdigit : Char.isDigit '=' = false := by decide
      simp [hdigit]
  obtain ⟨c, t, rfl⟩ := List.exists_cons_of_ne_nil hne
  refine ⟨c, t ++ rest, rfl, ?_⟩
  rw [token?_of_isAtomChar (hs c List.mem_cons_self), ← List.cons_append, hscan]

theorem isAtomChar_of_isBareKeyChar {c : Char} (h : isBareKeyChar c = true) :
    isAtomChar c = true := by
  rw [← Bool.not_eq_false]
  intro hatom
  simp only [isAtomChar, isGap, Bool.not_eq_false', Bool.or_eq_true, beq_iff_eq] at hatom
  rcases hatom with ((((((((((((rfl | rfl) | rfl) | rfl) | rfl) | rfl) | rfl) | rfl) | rfl) | rfl) |
    rfl) | rfl) | rfl) | rfl <;> revert h <;> decide

/-- An atom of characters that a bare key may have. -/
theorem begins_bare {s rest : List Char} (hne : s ≠ []) (hs : s.all isBareKeyChar = true)
    (hrest : Ends rest) : Begins (s ++ rest) (.atom s) rest :=
  begins_atom hne (fun c hc => isAtomChar_of_isBareKeyChar (List.all_eq_true.1 hs c hc)) hrest

theorem begins_string {style : Style} {s : List Char} (h : style.Writes s) {rest : List Char}
    (hrest : Ends rest) :
    Begins (stringChars style s ++ rest) (.quoted style.isMultiline (.ofList s)) rest :=
  begins_stringChars h hrest.head?.1 hrest.head?.2.1

/-- The token of a key. -/
def keyToken (key : String) : Token :=
  if key.toList ≠ [] ∧ key.toList.all isBareKeyChar then .atom key.toList else .quoted false key

theorem cuts_key (key : String) : Cuts Ends (keyChars key) [keyToken key] := by
  refine Cuts.of_begins fun rest hrest => ?_
  simp only [keyChars, keyToken]
  split
  · exact begins_bare ‹_ ∧ _›.1 ‹_ ∧ _›.2 hrest
  · have h := begins_string (keyStyle_writes key.toList) hrest
    rw [isMultiline_keyStyle, String.ofList_toList] at h
    exact h

/-- The token of a text value. -/
def textToken (s : String) : Token := .quoted (valueStyle s.toList).isMultiline s

theorem cuts_text (s : String) : Cuts Ends (textChars s) [textToken s] := by
  refine Cuts.of_begins fun rest hrest => ?_
  have h := begins_string (valueStyle_writes s.toList) hrest
  rw [String.ofList_toList] at h
  exact h

/-- A text that starts with no blank. -/
def NoGap (rest : List Char) : Prop := ∀ c, rest.head? = some c → isGap c = false

theorem begins_blank {rest : List Char} (h : NoGap rest) : Begins (' ' :: rest) .blank rest := by
  refine ⟨' ', rest, rfl, ?_⟩
  rw [token?, Text.dropWhile_of_stops h]

theorem noGap_textChars (s : String) (rest : List Char) : NoGap (textChars s ++ rest) := by
  unfold textChars
  cases valueStyle s.toList <;> (rintro _ ⟨⟩; decide)

theorem intercalate_cons {α : Type} (sep a : List α) (as : List (List α)) :
    sep.intercalate (a :: as) = a ++ as.flatMap (sep ++ ·) := by
  induction as generalizing a with
  | nil => simp
  | cons b as ih =>
    rw [List.intercalate_cons_cons, ih, List.flatMap_cons]
    simp only [List.append_assoc]

/-- Pieces with a separator between them, which belongs to the piece behind it. -/
theorem Cuts.separated {α : Type} {ends : List Char → Prop} {sep : List Char}
    {chars : α → List Char} {ts : List Token} {next : α → List Token} {a : α} {as : List α}
    (h : Cuts ends (chars a) ts) (hnext : ∀ b ∈ as, Cuts ends (sep ++ chars b) (next b))
    (hends : ∀ b rest, ends (sep ++ chars b ++ rest)) :
    Cuts ends (sep.intercalate ((a :: as).map chars)) (ts ++ as.flatMap next) := by
  have hrest : Cuts ends (as.flatMap fun b => sep ++ chars b) (as.flatMap next) :=
    Cuts.flatMap hnext hends
  rw [List.map_cons, intercalate_cons, List.flatMap_map]
  exact h.append hrest fun rest hrest => ends_flatMap hends as hrest

/-- Any text. -/
def Always (_ : List Char) : Prop := True

/-- A character that is a token of its own. -/
theorem cuts_mark {c : Char} {t : Token} (h : ∀ rest, token? c rest = some (t, rest)) :
    Cuts Always [c] [t] :=
  Cuts.of_begins fun rest _ => ⟨c, rest, rfl, h rest⟩

theorem Cuts.mono {ends ends' : List Char → Prop} {s : List Char} {ts : List Token}
    (h : Cuts ends s ts) (hends : ∀ rest, ends' rest → ends rest) : Cuts ends' s ts :=
  fun rest hrest => h rest (hends rest hrest)

theorem cuts_openSquare : Cuts Always ['['] [.openSquare] := cuts_mark fun _ => rfl

theorem cuts_closeSquare : Cuts Always [']'] [.closeSquare] := cuts_mark fun _ => rfl

theorem cuts_newline : Cuts Always ['\n'] [.newline] := cuts_mark fun _ => rfl

theorem cuts_blank : Cuts NoGap [' '] [.blank] := Cuts.of_begins fun _ => begins_blank

/-- The tokens of an item behind a comma. -/
def nextItemTokens (s : String) : List Token := [.comma, .blank, textToken s]

theorem cuts_nextItem (s : String) :
    Cuts Ends ([',', ' '] ++ textChars s) (nextItemTokens s) := by
  have hcomma : Cuts Always [','] [.comma] := cuts_mark fun _ => rfl
  have hpair : Cuts NoGap [',', ' '] [.comma, .blank] := hcomma.append cuts_blank fun _ _ => trivial
  exact hpair.append (cuts_text s) fun rest _ => noGap_textChars s rest

/-- The tokens of a value. -/
def Written.tokens : Written → List Token
  | boolean b => [.atom (booleanChars b)]
  | number n => [.atom (Nat.toDigits 10 n)]
  | text s => [textToken s]
  | texts [] => [.openSquare, .closeSquare]
  | texts (s :: items) =>
    .openSquare :: textToken s :: items.flatMap nextItemTokens ++ [.closeSquare]

theorem cuts_value (value : Written) : Cuts Ends value.chars value.tokens := by
  match value with
  | .boolean b =>
    exact Cuts.of_begins fun rest hrest =>
      begins_bare (by cases b <;> exact nofun) (by cases b <;> rfl) hrest
  | .number n =>
    obtain ⟨hne, hdigits⟩ := Decimal.isDigits_toDigits n
    refine Cuts.of_begins fun rest hrest => begins_bare hne (List.all_eq_true.2 ?_) hrest
    intro c hc
    simp [isBareKeyChar, hdigits c hc]
  | .text s => exact cuts_text s
  | .texts [] =>
    have hlist := cuts_openSquare.append cuts_closeSquare fun _ _ => trivial
    exact hlist.mono fun _ _ => trivial
  | .texts (s :: items) =>
    have hitems : Cuts Ends ([',', ' '].intercalate ((s :: items).map textChars))
        ([textToken s] ++ items.flatMap nextItemTokens) :=
      (cuts_text s).separated (fun s _ => cuts_nextItem s) fun _ _ => .mark (by decide) _
    have hlist := (cuts_openSquare.append hitems fun _ _ => trivial).append cuts_closeSquare
      fun rest _ => .mark (by decide) rest
    exact hlist.mono fun _ _ => trivial

theorem noGap_value (value : Written) (rest : List Char) : NoGap (value.chars ++ rest) := by
  match value with
  | .boolean b => cases b <;> (rintro _ ⟨⟩; decide)
  | .number n =>
    obtain ⟨hne, hdigits⟩ := Decimal.isDigits_toDigits n
    obtain ⟨d, t, hd⟩ := List.exists_cons_of_ne_nil hne
    have hdigit := hdigits d (hd ▸ List.mem_cons_self)
    rw [Written.chars, hd]
    rintro _ ⟨⟩
    rw [← Bool.not_eq_true]
    intro hgap
    simp only [isGap, Bool.or_eq_true, beq_iff_eq] at hgap
    rcases hgap with rfl | rfl <;> exact absurd hdigit (by decide)
  | .text s => exact noGap_textChars s rest
  | .texts items =>
    rintro _ ⟨⟩
    decide

/-- The tokens of a line. -/
def entryTokens (entry : String × Written) : List Token :=
  keyToken entry.1 :: .blank :: .equals :: .blank :: entry.2.tokens ++ [.newline]

theorem cuts_entry (entry : String × Written) :
    Cuts Always (entryChars entry) (entryTokens entry) := by
  have hequals : Cuts Always ['='] [.equals] := cuts_mark fun _ => rfl
  have hsign : Cuts NoGap [' ', '=', ' '] [.blank, .equals, .blank] :=
    cuts_blank.append (hequals.append cuts_blank fun _ _ => trivial) fun _ _ => by
      rintro _ ⟨⟩
      decide
  have hkey := (cuts_key entry.1).append hsign fun rest _ => .equals _
  have hvalue := hkey.append (cuts_value entry.2) fun rest _ => noGap_value entry.2 rest
  exact hvalue.append cuts_newline fun rest _ => .mark (by decide) rest

/-- The tokens of a part of a header behind a dot. -/
def nextKeyTokens (key : String) : List Token := [.dot, keyToken key]

/-- The tokens of a header. -/
def headerTokens : List String → List Token
  | [] => []
  | key :: keys => keyToken key :: keys.flatMap nextKeyTokens

theorem cuts_header {header : List String} (h : header ≠ []) :
    Cuts Ends (['.'].intercalate (header.map keyChars)) (headerTokens header) := by
  obtain ⟨key, keys, rfl⟩ := List.exists_cons_of_ne_nil h
  have hdot : Cuts Always ['.'] [.dot] := cuts_mark fun _ => rfl
  exact (cuts_key key).separated (fun key _ => hdot.append (cuts_key key) fun _ _ => trivial)
    fun _ _ => .mark (by decide) _

namespace Section

/-- The tokens of a section. -/
def tokens (s : Section) : List Token :=
  .openSquare :: headerTokens s.header ++ [.closeSquare, .newline] ++ s.entries.flatMap entryTokens

theorem cuts_section {s : Section} (h : s.header ≠ []) : Cuts Always s.chars s.tokens := by
  have hend := cuts_closeSquare.append cuts_newline fun _ _ => trivial
  have hheader := (cuts_openSquare.append (cuts_header h) fun _ _ => trivial).append hend
    fun rest _ => .mark (by decide) _
  exact hheader.append (Cuts.flatMap (fun entry _ => cuts_entry entry) fun _ _ => trivial)
    fun _ _ => trivial

/-- The tokens of a section behind an empty line. -/
def nextTokens (s : Section) : List Token := .newline :: s.tokens

/-- The tokens of some sections. -/
def allTokens : List Section → List Token
  | [] => []
  | s :: sections => s.tokens ++ sections.flatMap nextTokens

/-- The tokens of written sections are read back. -/
theorem tokens?_render {sections : List Section} (h : ∀ s ∈ sections, s.header ≠ []) :
    tokens? (render sections).toList = some (allTokens sections) := by
  rw [render, String.toList_ofList]
  cases sections with
  | nil => rw [List.map_nil, List.intercalate_nil, tokens?, allTokens]
  | cons s sections =>
    have hnext : ∀ t ∈ sections, Cuts Always (['\n'] ++ t.chars) t.nextTokens := fun t ht =>
      cuts_newline.append (cuts_section (h t (List.mem_cons_of_mem _ ht))) fun _ _ => trivial
    have hfirst := cuts_section (h s List.mem_cons_self)
    have hall := hfirst.separated hnext (fun _ _ => trivial) [] trivial
    rw [List.append_nil, tokens?, Option.map_some, List.append_nil] at hall
    exact hall

end Section

/-! ## Tokens to statements -/

/-- Some tokens take the reader from one place to another, and write some statements. -/
def Reaches (e : Expectation) (ts : List Token) (e' : Expectation) (written : List Statement) :
    Prop :=
  ∀ rest, statementsFrom e (ts ++ rest) = (statementsFrom e' rest).map (written ++ ·)

theorem Reaches.append {e e' e'' : Expectation} {ts ts' : List Token}
    {written written' : List Statement} (h : Reaches e ts e' written)
    (h' : Reaches e' ts' e'' written') : Reaches e (ts ++ ts') e'' (written ++ written') := by
  intro rest
  rw [List.append_assoc, h, h', Option.map_map]
  congr 1
  funext us
  exact (List.append_assoc written written' us).symm

theorem reaches_nil (e : Expectation) : Reaches e [] e [] := by
  intro rest
  simp

theorem Reaches.cons {e e' e'' : Expectation} {t : Token} {ts : List Token}
    {written : List Statement} (h : step e t = some (e', none))
    (h' : Reaches e' ts e'' written) : Reaches e (t :: ts) e'' written := by
  intro rest
  rw [List.cons_append, statementsFrom, h]
  simp only [Option.bind_eq_bind, Option.bind_some, h' rest, Option.pure_def, Option.toList_none,
    List.nil_append, Option.bind_fun_some]

theorem reaches_last {e e' : Expectation} {t : Token} {statement : Statement}
    (h : step e t = some (e', some statement)) : Reaches e [t] e' [statement] := by
  intro rest
  rw [List.singleton_append, statementsFrom, h]
  simp only [Option.bind_eq_bind, Option.bind_some]
  cases statementsFrom e' rest <;> rfl

theorem Reaches.flatMap {α : Type} {e : Expectation} {tokens : α → List Token}
    {written : α → List Statement} {as : List α}
    (h : ∀ a ∈ as, Reaches e (tokens a) e (written a)) :
    Reaches e (as.flatMap tokens) e (as.flatMap written) := by
  induction as with
  | nil => exact reaches_nil e
  | cons a as ih =>
    exact Reaches.append (h a List.mem_cons_self) (ih fun b hb => h b (List.mem_cons_of_mem _ hb))

/-- An expectation of a part of a key, behind some parts. -/
inductive Expectation.TakesKey : Expectation → KeyUse → List String → Prop
  | statement : TakesKey .statement .line []
  | headerKey : TakesKey .headerKey .header []
  | keyPart (use : KeyUse) (before : List String) : TakesKey (.keyPart use before) use before

theorem step_keyToken {e : Expectation} {use : KeyUse} {before : List String}
    (h : e.TakesKey use before) (key : String) :
    step e (keyToken key) = some (.keyEnd use before key, none) := by
  have hkey : keyOf? (keyToken key) = some key := by
    unfold keyToken
    split
    · rename_i hbare
      rw [keyOf?, if_pos hbare.2, String.ofList_toList]
    · rfl
  have hstep : step e (keyToken key) = (keyPart use before (keyToken key)).map (·, none) := by
    unfold keyToken
    cases h <;> split <;> rfl
  rw [hstep, keyPart, hkey]
  rfl

/-- The key of a header. -/
def Key.ofHeader (header : List String) : Key := ⟨header.dropLast, header.getLastD ""⟩

theorem reaches_nextKeys {before keys : List String} {key : String}
    (h : before.length + keys.length < maximalParts) :
    Reaches (.keyEnd .header before key) (keys.flatMap nextKeyTokens)
      (.keyEnd .header (before ++ (key :: keys).dropLast) (keys.getLastD key)) [] := by
  induction keys generalizing before key with
  | nil =>
    rw [List.dropLast_singleton, List.append_nil]
    exact reaches_nil _
  | cons next keys ih =>
    rw [List.length_cons] at h
    have hdot : step (.keyEnd .header before key) .dot =
        some (.keyPart .header (before ++ [key]), none) := by
      have hparts : (before ++ [key]).length < maximalParts := by
        rw [List.length_append, List.length_singleton]
        omega
      simp only [step, stepPlain, nextPart, if_pos hparts, Option.map_some]
    have hlength : (before ++ [key]).length + keys.length < maximalParts := by
      rw [List.length_append, List.length_singleton]
      omega
    have hrest := @ih (before ++ [key]) next hlength
    rw [List.append_assoc, List.singleton_append] at hrest
    rw [List.flatMap_cons, List.getLastD_cons]
    exact Reaches.cons hdot (Reaches.cons (step_keyToken (.keyPart _ _) next) hrest)

theorem reaches_header {header : List String} (hne : header ≠ [])
    (h : header.length ≤ maximalParts) :
    Reaches .statement (.openSquare :: headerTokens header ++ [.closeSquare, .newline]) .statement
      [.header (.ofHeader header)] := by
  obtain ⟨key, keys, rfl⟩ := List.exists_cons_of_ne_nil hne
  have hlength : ([] : List String).length + keys.length < maximalParts := by
    rw [List.length_cons] at h
    rw [List.length_nil, Nat.zero_add]
    exact h
  have hopen : Reaches .statement (.openSquare :: headerTokens (key :: keys)) _ [] :=
    Reaches.cons rfl (Reaches.cons (step_keyToken .headerKey key) (reaches_nextKeys hlength))
  refine hopen.append (Reaches.cons rfl (reaches_last ?_))
  rw [List.nil_append, Key.ofHeader, List.getLastD_cons]
  rfl

/-! ## Values -/

/-- The node of a value. -/
def Written.node : Written → Node
  | boolean b => .boolean b
  | number n => .integer n
  | text s => .text s
  | texts items => .list (items.map .text)

/-- A number within the range of integers. -/
def Written.Fits : Written → Prop
  | number n => (n : Int) ≤ Int64.maxValue.toInt
  | boolean _ | text _ | texts _ => True

theorem ungroup?_digits {s : List Char} (h : IsDigits s) : ungroup? Char.isDigit s = some s := by
  obtain ⟨hne, hdigits⟩ := h
  induction s with
  | nil => exact absurd rfl hne
  | cons c s ih =>
    have hc := hdigits c List.mem_cons_self
    cases s with
    | nil => simp [ungroup?, hc]
    | cons d s =>
      have hgroup : d ≠ '_' := IsDigits.ne ⟨hne, hdigits⟩ (by simp) (by decide)
      have hrest := ih (List.cons_ne_nil _ _) fun a ha => hdigits a (List.mem_cons_of_mem _ ha)
      rw [ungroup?]
      · rw [if_pos hc, hrest]
        rfl
      · exact nofun
      · rintro t heq
        exact hgroup (List.cons.inj heq).1

theorem sign_digits {s : List Char} (h : IsDigits s) : sign s = (false, s) := by
  unfold sign
  split
  · exact absurd rfl (h.ne List.mem_cons_self (by decide))
  · exact absurd rfl (h.ne List.mem_cons_self (by decide))
  · rfl

theorem integer?_toDigits {n : Nat} (h : (n : Int) ≤ Int64.maxValue.toInt) :
    integer? (Nat.toDigits 10 n) = some n := by
  have hdigits := Decimal.isDigits_toDigits n
  have hdecimal : decimalDigits? (Nat.toDigits 10 n) = some (Nat.toDigits 10 n) := by
    rw [decimalDigits?, ungroup?_digits hdigits]
    simp only [Option.bind_eq_bind, Option.bind_some]
    split
    · rename_i heq
      exact absurd (Decimal.tail_eq_nil_of_toDigits heq) (List.cons_ne_nil _ _)
    · rfl
  have hread : Nat.ofDigitChars 10 (Nat.toDigits 10 n) 0 = n := Nat.ofDigitChars_ten_toDigits
  have hwithin : within64? (n : Int) = some (n : Int) := by
    have hlow : Int64.minValue.toInt ≤ (n : Int) :=
      Int.le_trans (by decide) (Int.natCast_nonneg n)
    exact if_pos ⟨hlow, h⟩
  generalize hs : Nat.toDigits 10 n = s at *
  unfold integer?
  split
  · exact absurd rfl (hdigits.ne (c := 'x') (by simp) (by decide))
  · exact absurd rfl (hdigits.ne (c := 'o') (by simp) (by decide))
  · exact absurd rfl (hdigits.ne (c := 'b') (by simp) (by decide))
  · simp only [sign_digits hdigits, hdecimal, hread, Option.bind_eq_bind, Option.bind_some]
    exact hwithin

theorem atom?_toDigits {n : Nat} (h : (n : Int) ≤ Int64.maxValue.toInt) :
    atom? (Nat.toDigits 10 n) = some (.integer n) := by
  have hdigits := Decimal.isDigits_toDigits n
  have htrue : Nat.toDigits 10 n ≠ ['t', 'r', 'u', 'e'] := fun heq =>
    hdigits.ne (heq ▸ List.mem_cons_self) (by decide) rfl
  have hfalse : Nat.toDigits 10 n ≠ ['f', 'a', 'l', 's', 'e'] := fun heq =>
    hdigits.ne (heq ▸ List.mem_cons_self) (by decide) rfl
  rw [atom?, if_neg htrue, if_neg hfalse, integer?_toDigits h]
  rfl

theorem atom?_booleanChars (b : Bool) : atom? (booleanChars b) = some (.boolean b) := by
  cases b <;> rfl

/-- An unquoted value is complete at the end of its line. -/
theorem reaches_atom {key : Key} {s : List Char} {v : Node} (h : atom? s = some v) :
    Reaches (.value (.line key)) [.atom s, .newline] .statement [.value key v] := by
  refine Reaches.cons rfl (reaches_last ?_)
  simp only [step, h, Option.bind_eq_bind, Option.bind_some]
  rfl

theorem reaches_nextItems (before : List Node) (outer : Context) (items : List String) :
    Reaches (.itemEnd before outer) (items.flatMap nextItemTokens)
      (.itemEnd ((items.map Node.text).reverse ++ before) outer) [] := by
  induction items generalizing before with
  | nil => exact reaches_nil _
  | cons s items ih =>
    rw [List.map_cons, List.reverse_cons, List.append_assoc, List.singleton_append]
    exact Reaches.cons rfl (Reaches.cons rfl (Reaches.cons rfl (ih (.text s :: before))))

theorem reaches_value (key : Key) {value : Written} (h : value.Fits) :
    Reaches (.value (.line key)) (value.tokens ++ [.newline]) .statement
      [.value key value.node] := by
  match value with
  | .boolean b => exact reaches_atom (atom?_booleanChars b)
  | .number n => exact reaches_atom (atom?_toDigits h)
  | .text s => exact Reaches.cons rfl (reaches_last rfl)
  | .texts [] => exact Reaches.cons rfl (Reaches.cons rfl (reaches_last rfl))
  | .texts (s :: items) =>
    have hitems := (reaches_nextItems [.text s] (.line key) items).append
      (Reaches.cons (t := .closeSquare) rfl (reaches_last (t := .newline) rfl))
    rw [Written.tokens, Written.node, List.cons_append, List.cons_append, List.append_assoc]
    refine Reaches.cons rfl (Reaches.cons rfl ?_)
    rw [List.reverse_append, List.reverse_reverse, List.nil_append] at hitems
    exact hitems

theorem reaches_entry {entry : String × Written} (h : entry.2.Fits) :
    Reaches .statement (entryTokens entry) .statement [.value ⟨[], entry.1⟩ entry.2.node] := by
  have hvalue := reaches_value ⟨[], entry.1⟩ h
  exact Reaches.cons (step_keyToken .statement entry.1)
    (Reaches.cons rfl (Reaches.cons rfl (Reaches.cons rfl hvalue)))

namespace Section

/-- The values of a section. -/
def fields (s : Section) : List (Key × Node) :=
  s.entries.map fun entry => (⟨[], entry.1⟩, entry.2.node)

/-- The statements of a section. -/
def statements (s : Section) : List Statement :=
  .header (.ofHeader s.header) :: s.fields.map fun field => .value field.1 field.2

/-- A section that can be read: its header has some parts, not too many, and its numbers are within
the range of integers. -/
structure WellFormed (s : Section) : Prop where
  header_ne : s.header ≠ []
  header_length : s.header.length ≤ maximalParts
  fits : ∀ entry ∈ s.entries, entry.2.Fits

theorem reaches_section {s : Section} (h : s.WellFormed) :
    Reaches .statement s.tokens .statement s.statements := by
  have hentries : Reaches .statement (s.entries.flatMap entryTokens) .statement
      (s.fields.map fun field => .value field.1 field.2) := by
    rw [fields, List.map_map, List.map_eq_flatMap]
    exact Reaches.flatMap fun entry hentry => reaches_entry (h.fits entry hentry)
  exact (reaches_header h.header_ne h.header_length).append hentries

/-- The statements of written sections are read back. -/
theorem statements?_tokens {sections : List Section} (h : ∀ s ∈ sections, s.WellFormed) :
    statements? (allTokens sections) = some (sections.flatMap statements) := by
  cases sections with
  | nil => rfl
  | cons s sections =>
    have hnext : Reaches .statement (sections.flatMap nextTokens) .statement
        (sections.flatMap statements) :=
      Reaches.flatMap fun s hs =>
        Reaches.cons rfl (reaches_section (h s (List.mem_cons_of_mem _ hs)))
    have hall := (reaches_section (h s List.mem_cons_self)).append hnext []
    rw [List.append_nil, statementsFrom] at hall
    rw [statements?, allTokens, hall]
    simp [finish]

end Section

end ConsentGate.Toml
