import ConsentGate.Json.Reader
import ConsentGate.Proofs.Json.Scanning

/-!
# Spelling documents

A document has its lexemes, in one order, and a text spells it if it spells these lexemes with any
white space before, between and behind them. The reader accepts exactly the texts that spell a
document. For what it accepts, each step adds the lexeme that it takes to those that its expectation
has behind it. In the other direction, the lexemes of a value take the reader from the place of a
value to the place behind it, and no number runs into the lexeme behind it, because the reader only
goes on there with a bracket or a comma.

Results:

* `taken_of_step`, `spells_of_readFrom`: each step takes one lexeme, and so a text from which a
  document is read spells its lexemes.
* `readFrom_tokens`: the lexemes of a value are read as the value.
* `read?_eq_some_iff`: exactly the texts that spell a document are read as the document.
-/

namespace ConsentGate.Json

/-! ## The lexemes of a document -/

mutual

/-- The lexemes of a document. -/
def tokens : Json → List Lexeme
  | .null => [.atom .null]
  | .bool b => [.atom (.bool b)]
  | .number n => [.atom (.number n)]
  | .string q => [.string q]
  | .array items => .openBracket :: (itemTokens items ++ [.closeBracket])
  | .object fields => .openBrace :: (fieldTokens fields ++ [.closeBrace])

/-- The lexemes of items with commas between them. -/
def itemTokens : List Json → List Lexeme
  | [] => []
  | [item] => tokens item
  | item :: next :: items => tokens item ++ .comma :: itemTokens (next :: items)

/-- The lexemes of fields with commas between them. -/
def fieldTokens : List (Quoted × Json) → List Lexeme
  | [] => []
  | [(name, value)] => .string name :: .colon :: tokens value
  | (name, value) :: next :: fields =>
    .string name :: .colon :: (tokens value ++ .comma :: fieldTokens (next :: fields))

end

/-- Text that holds nothing but white space. -/
def IsGap (s : List Char) : Prop := ∀ c ∈ s, isSpace c = true

/-- A text spells some lexemes, with white space before, between and behind them. -/
inductive Spells : List Char → List Lexeme → Prop
  | done {gap : List Char} (h : IsGap gap) : Spells gap []
  | lexeme {gap s rest : List Char} {l : Lexeme} {ls : List Lexeme} (hgap : IsGap gap)
    (h : l.IsSpelled s) (hrest : Spells rest ls) : Spells (gap ++ (s ++ rest)) (l :: ls)

/-- A text spells a document. -/
def IsSpelled (document : Json) (text : String) : Prop := Spells text.toList document.tokens

/-! ## White space -/

theorem ends_gap {gap rest : List Char} (h : IsGap gap) (hrest : Ends rest) :
    Ends (gap ++ rest) := by
  cases gap with
  | nil => exact hrest
  | cons c gap =>
    have hc := h c List.mem_cons_self
    simp only [isSpace, Bool.or_eq_true, beq_iff_eq] at hc
    rcases hc with ((rfl | rfl) | rfl) | rfl <;> exact ends_cons (by decide) _

theorem lexemes_gap {gap : List Char} (h : IsGap gap) (rigor : Rigor) (rest : List Char) :
    lexemes rigor (gap ++ rest) = lexemes rigor rest := by
  induction gap with
  | nil => rfl
  | cons c gap ih =>
    rw [List.cons_append, lexemes, if_pos (h c List.mem_cons_self)]
    exact ih fun d hd => h d (List.mem_cons_of_mem _ hd)

theorem isGap_append {gap gap' : List Char} (h : IsGap gap) (h' : IsGap gap') :
    IsGap (gap ++ gap') := fun c hc => (List.mem_append.1 hc).elim (h c) (h' c)

theorem Spells.gap {gap s : List Char} {ls : List Lexeme} (h : IsGap gap) (hs : Spells s ls) :
    Spells (gap ++ s) ls := by
  cases hs with
  | done hgap => exact .done (isGap_append h hgap)
  | lexeme hgap hl hrest =>
    rw [← List.append_assoc]
    exact .lexeme (isGap_append h hgap) hl hrest

theorem Spells.append {s t : List Char} {ls ls' : List Lexeme} (hs : Spells s ls)
    (ht : Spells t ls') : Spells (s ++ t) (ls ++ ls') := by
  induction hs with
  | done hgap => exact ht.gap hgap
  | lexeme hgap hl _ ih =>
    rw [List.append_assoc, List.append_assoc]
    exact .lexeme hgap hl ih

theorem Spells.single {s : List Char} {l : Lexeme} (h : l.IsSpelled s) : Spells s [l] := by
  have hsingle : Spells ([] ++ (s ++ [])) [l] := .lexeme nofun h (.done nofun)
  rwa [List.append_nil] at hsingle

/-! ## What the reader has taken -/

/-- The lexemes of items, each with a comma behind it. -/
def itemsBefore (items : List Json) : List Lexeme :=
  items.flatMap fun item => tokens item ++ [.comma]

/-- The lexemes of fields, each with a comma behind it. -/
def fieldsBefore (fields : List (Quoted × Json)) : List Lexeme :=
  fields.flatMap fun field => .string field.1 :: .colon :: (tokens field.2 ++ [.comma])

theorem itemTokens_concat (items : List Json) (item : Json) :
    itemTokens (items ++ [item]) = itemsBefore items ++ tokens item := by
  induction items with
  | nil => rfl
  | cons first items ih =>
    obtain ⟨next, rest, hnext⟩ := List.exists_cons_of_ne_nil
      (List.append_ne_nil_of_right_ne_nil items (List.cons_ne_nil item []))
    rw [List.cons_append, hnext, itemTokens, ← hnext, ih, itemsBefore, itemsBefore,
      List.flatMap_cons]
    simp

theorem fieldTokens_concat (fields : List (Quoted × Json)) (name : Quoted) (value : Json) :
    fieldTokens (fields ++ [(name, value)]) =
      fieldsBefore fields ++ .string name :: .colon :: tokens value := by
  induction fields with
  | nil => rfl
  | cons first fields ih =>
    obtain ⟨next, rest, hnext⟩ := List.exists_cons_of_ne_nil
      (List.append_ne_nil_of_right_ne_nil fields (List.cons_ne_nil (name, value) []))
    rw [List.cons_append, hnext, fieldTokens, ← hnext, ih, fieldsBefore, fieldsBefore,
      List.flatMap_cons]
    simp

/-- The lexemes in front of a value. -/
def Context.taken : Context → List Lexeme
  | .top => []
  | .item before outer => outer.taken ++ .openBracket :: itemsBefore before.reverse
  | .field before name outer =>
    outer.taken ++ .openBrace :: (fieldsBefore before.reverse ++ [.string name, .colon])

/-- The lexemes that have been taken when something is expected. -/
def Expectation.taken : Expectation → List Lexeme
  | .value context => context.taken
  | .firstItem outer => outer.taken ++ [.openBracket]
  | .nextItem before outer => outer.taken ++ .openBracket :: itemsBefore before.reverse
  | .firstName outer => outer.taken ++ [.openBrace]
  | .nextName before outer => outer.taken ++ .openBrace :: fieldsBefore before.reverse
  | .colon before name outer =>
    outer.taken ++ .openBrace :: (fieldsBefore before.reverse ++ [.string name])
  | .separator context v => context.taken ++ tokens v

/-- An atom is a document of one lexeme. -/
theorem tokens_of_isSpelled {value : Json} {s : List Char} (h : (Lexeme.atom value).IsSpelled s) :
    tokens value = [.atom value] := by
  cases value with
  | null | number _ => rfl
  | bool b => rfl
  | string _ | array _ | object _ => cases h

theorem taken_of_startValue {context : Context} {l : Lexeme} {place s : List Char}
    {next : Expectation} (hl : l.IsSpelled s)
    (h : startValue .shape context ⟨l, place⟩ = .ok next) : next.taken = context.taken ++ [l] := by
  cases l with
  | openBracket | openBrace =>
    obtain ⟨-, rfl⟩ := enter_eq_ok.1 h
    rfl
  | string q =>
    cases h
    rfl
  | atom value =>
    cases h
    rw [Expectation.taken, tokens_of_isSpelled hl]
  | closeBracket | closeBrace | comma | colon | broken _ _ => cases h

theorem taken_of_startField {before : List (Quoted × Json)} {outer : Context} {l : Lexeme}
    {place : List Char} {next : Expectation} (h : startField before outer ⟨l, place⟩ = .ok next) :
    next.taken = outer.taken ++ .openBrace :: (fieldsBefore before.reverse ++ [l]) := by
  cases l with
  | string name =>
    cases h
    rfl
  | broken isString fault => cases isString <;> cases h
  | openBracket | closeBracket | openBrace | closeBrace | comma | colon | atom _ => cases h

/-- An expectation of a value in a context. -/
inductive Expectation.Takes : Expectation → Context → Prop
  | value (context : Context) : Takes (.value context) context
  | firstItem (outer : Context) : Takes (.firstItem outer) (.item [] outer)
  | nextItem (before : List Json) (outer : Context) :
    Takes (.nextItem before outer) (.item before outer)

theorem Expectation.Takes.taken {e : Expectation} {context : Context} (h : e.Takes context) :
    e.taken = context.taken := by
  cases h <;> rfl

/-- Where a value may stand, a lexeme that is no closing bracket starts one. -/
theorem step_of_takes {rigor : Rigor} {e : Expectation} {context : Context} (h : e.Takes context)
    {l : Lexeme} (hl : l ≠ .closeBracket) (place : List Char) :
    step rigor e ⟨l, place⟩ = startValue rigor context ⟨l, place⟩ := by
  cases h with
  | value => cases l <;> rfl
  | firstItem => cases l <;> first | rfl | exact absurd rfl hl
  | nextItem => cases l <;> first | rfl | exact absurd rfl hl

/-- The items of an array that ends behind a value. -/
theorem taken_array (before : List Json) (outer : Context) (v : Json) :
    outer.taken ++ tokens (.array (v :: before).reverse) =
      (Context.item before outer).taken ++ tokens v ++ [.closeBracket] := by
  rw [List.reverse_cons, tokens, itemTokens_concat, Context.taken]
  simp

/-- The fields of an object that ends behind a value. -/
theorem taken_object (before : List (Quoted × Json)) (name : Quoted) (outer : Context) (v : Json) :
    outer.taken ++ tokens (.object ((name, v) :: before).reverse) =
      (Context.field before name outer).taken ++ tokens v ++ [.closeBrace] := by
  rw [List.reverse_cons, tokens, fieldTokens_concat, Context.taken]
  simp

theorem taken_of_separator {context : Context} {v : Json} {l : Lexeme} {place : List Char}
    {next : Expectation} (h : step .shape (.separator context v) ⟨l, place⟩ = .ok next) :
    (l = .comma ∨ l = .closeBracket ∨ l = .closeBrace) ∧
      next.taken = context.taken ++ tokens v ++ [l] := by
  cases context with
  | top => cases l <;> cases h
  | item before outer =>
    cases l with
    | comma =>
      cases h
      refine ⟨.inl rfl, ?_⟩
      simp [Expectation.taken, Context.taken, itemsBefore]
    | closeBracket =>
      cases h
      exact ⟨.inr (.inl rfl), taken_array before outer v⟩
    | _ => cases h
  | field before name outer =>
    cases l with
    | comma =>
      cases h
      refine ⟨.inl rfl, ?_⟩
      simp [Expectation.taken, Context.taken, fieldsBefore]
    | closeBrace =>
      cases h
      exact ⟨.inr (.inr rfl), taken_object before name outer v⟩
    | _ => cases h

/-- Each step adds the lexeme that it takes. -/
theorem taken_of_step {e next : Expectation} {l : Lexeme} {place s : List Char}
    (hl : l.IsSpelled s) (h : step .shape e ⟨l, place⟩ = .ok next) :
    next.taken = e.taken ++ [l] := by
  have hvalue {context : Context} (he : e.Takes context) (hl' : l ≠ .closeBracket) :
      next.taken = e.taken ++ [l] := by
    rw [step_of_takes he hl'] at h
    rw [he.taken, taken_of_startValue hl h]
  cases e with
  | value context =>
    by_cases hclose : l = .closeBracket
    · subst hclose
      cases h
    · exact hvalue (.value context) hclose
  | firstItem outer =>
    by_cases hclose : l = .closeBracket
    · subst hclose
      cases h
      simp [Expectation.taken, tokens, itemTokens]
    · exact hvalue (.firstItem outer) hclose
  | nextItem before outer =>
    by_cases hclose : l = .closeBracket
    · subst hclose
      cases h
    · exact hvalue (.nextItem before outer) hclose
  | firstName outer =>
    by_cases hclose : l = .closeBrace
    · subst hclose
      cases h
      simp [Expectation.taken, tokens, fieldTokens]
    · have hfield : startField [] outer ⟨l, place⟩ = .ok next := by
        cases l <;> first | exact h | exact absurd rfl hclose
      simpa [Expectation.taken, fieldsBefore] using taken_of_startField hfield
  | nextName before outer =>
    by_cases hclose : l = .closeBrace
    · subst hclose
      cases h
    · have hfield : startField before outer ⟨l, place⟩ = .ok next := by
        cases l <;> first | exact h | exact absurd rfl hclose
      simpa [Expectation.taken] using taken_of_startField hfield
  | colon before name outer =>
    cases l with
    | colon =>
      cases h
      simp [Expectation.taken, Context.taken]
    | _ => cases h
  | separator context v => exact (taken_of_separator h).2

theorem tokens_of_finish {e : Expectation} {document : Json} (h : finish e = .ok document) :
    tokens document = e.taken := by
  cases e with
  | separator context v =>
    cases context with
    | top =>
      cases h
      rfl
    | item _ _ | field _ _ _ => cases h
  | _ => cases h

/-- No step takes a lexeme that is cut short. -/
theorem step_broken {e next : Expectation} {isString : Bool} {fault : Fault} {place : List Char} :
    step .shape e ⟨.broken isString fault, place⟩ ≠ .ok next := by
  intro h
  cases e with
  | value _ | firstItem _ | nextItem _ _ | colon _ _ _ => cases h
  | firstName _ | nextName _ _ => cases isString <;> cases h
  | separator context _ => cases context <;> cases h

/-- A text from which a document is read spells lexemes, which are those of the document behind what
has been taken. -/
theorem spells_of_readFrom {e : Expectation} {s : List Char} {document : Json}
    (h : readFrom .shape e (lexemes .shape s) = .ok document) :
    ∃ ls, Spells s ls ∧ tokens document = e.taken ++ ls := by
  fun_induction lexemes .shape s generalizing e with
  | case1 => exact ⟨[], .done nofun, by rw [List.append_nil, tokens_of_finish h]⟩
  | case2 c rest hspace ih =>
    obtain ⟨ls, hls, htokens⟩ := ih h
    have hgap : IsGap [c] := by simpa [IsGap] using hspace
    exact ⟨ls, hls.gap hgap, htokens⟩
  | case3 c rest hspace l after hscan ih =>
    obtain ⟨next, hstep, hnext⟩ := bind_eq_ok.1 h
    obtain ⟨ls, hls, htokens⟩ := ih hnext
    obtain ⟨s, hs, hsplit⟩ := isSpelled_of_scan hscan
    refine ⟨l :: ls, ?_, ?_⟩
    · rw [hsplit]
      exact (Spells.single hs).append hls
    · rw [htokens, taken_of_step hs hstep, List.append_assoc]
      rfl
  | case4 c rest hspace fault hscan =>
    obtain ⟨next, hstep, -⟩ := bind_eq_ok.1 h
    exact absurd hstep step_broken

/-! ## What the lexemes of a document are read as -/

/-- Lexemes without their places. -/
def unplaced (ls : List Lexeme) : List Entry := ls.map fun l => ⟨l, []⟩

theorem unplaced_cons (l : Lexeme) (ls : List Lexeme) :
    unplaced (l :: ls) = ⟨l, []⟩ :: unplaced ls := rfl

theorem readFrom_cons {e next : Expectation} {l : Lexeme} (h : step .shape e ⟨l, []⟩ = .ok next)
    (ls : List Lexeme) :
    readFrom .shape e (unplaced (l :: ls)) = readFrom .shape next (unplaced ls) := by
  rw [unplaced_cons, readFrom, h, ok_bind]

/-- An expectation of a name behind some fields. -/
inductive Expectation.TakesName : Expectation → List (Quoted × Json) → Context → Prop
  | firstName (outer : Context) : TakesName (.firstName outer) [] outer
  | nextName (before : List (Quoted × Json)) (outer : Context) :
    TakesName (.nextName before outer) before outer

theorem readFrom_name {e : Expectation} {before : List (Quoted × Json)} {outer : Context}
    (he : e.TakesName before outer) (name : Quoted) (ls : List Lexeme) :
    readFrom .shape e (unplaced (.string name :: ls)) =
      readFrom .shape (.colon before name outer) (unplaced ls) := by
  cases he <;> exact readFrom_cons rfl ls

theorem readFrom_value {e next : Expectation} {context : Context} {l : Lexeme}
    (he : e.Takes context) (hl : l ≠ .closeBracket)
    (h : startValue .shape context ⟨l, []⟩ = .ok next) (ls : List Lexeme) :
    readFrom .shape e (unplaced (l :: ls)) = readFrom .shape next (unplaced ls) :=
  readFrom_cons ((step_of_takes he hl []).trans h) ls

mutual

/-- The lexemes of a value take the reader from its place to the place behind it. -/
theorem readFrom_tokens (document : Json) {e : Expectation} {context : Context}
    (he : e.Takes context) (rest : List Lexeme) :
    readFrom .shape e (unplaced (tokens document ++ rest)) =
      readFrom .shape (.separator context document) (unplaced rest) := by
  match document with
  | .null => exact readFrom_value (l := .atom .null) he nofun rfl rest
  | .bool b => exact readFrom_value (l := .atom (.bool b)) he nofun rfl rest
  | .number n => exact readFrom_value (l := .atom (.number n)) he nofun rfl rest
  | .string q => exact readFrom_value (l := .string q) he nofun rfl rest
  | .array items =>
    calc readFrom .shape e
          (unplaced (.openBracket :: (itemTokens items ++ [.closeBracket] ++ rest)))
        = readFrom .shape (.firstItem context)
            (unplaced (itemTokens items ++ [.closeBracket] ++ rest)) :=
          readFrom_value (l := .openBracket) he nofun rfl _
      _ = readFrom .shape (.separator context (.array items)) (unplaced rest) := by
          rw [List.append_assoc]
          by_cases hitems : items = []
          · subst hitems
            exact readFrom_cons (l := .closeBracket) rfl rest
          · exact readFrom_itemTokens items hitems (.firstItem context) rest
  | .object fields =>
    calc readFrom .shape e (unplaced (.openBrace :: (fieldTokens fields ++ [.closeBrace] ++ rest)))
        = readFrom .shape (.firstName context)
            (unplaced (fieldTokens fields ++ [.closeBrace] ++ rest)) :=
          readFrom_value (l := .openBrace) he nofun rfl _
      _ = readFrom .shape (.separator context (.object fields)) (unplaced rest) := by
          rw [List.append_assoc]
          by_cases hfields : fields = []
          · subst hfields
            exact readFrom_cons (l := .closeBrace) rfl rest
          · exact readFrom_fieldTokens fields hfields (.firstName context) rest

/-- So do the lexemes of items, up to the closing bracket. -/
theorem readFrom_itemTokens (items : List Json) (hitems : items ≠ []) {e : Expectation}
    {before : List Json} {outer : Context} (he : e.Takes (.item before outer))
    (rest : List Lexeme) :
    readFrom .shape e (unplaced (itemTokens items ++ .closeBracket :: rest)) =
      readFrom .shape (.separator outer (.array (before.reverse ++ items))) (unplaced rest) := by
  match items with
  | [] => exact absurd rfl hitems
  | [item] =>
    rw [itemTokens, readFrom_tokens item he, readFrom_cons (l := .closeBracket) rfl,
      List.reverse_cons]
  | item :: next :: items =>
    rw [itemTokens, List.append_assoc, List.cons_append, readFrom_tokens item he,
      readFrom_cons (l := .comma) rfl,
      readFrom_itemTokens (next :: items) (List.cons_ne_nil _ _) (.nextItem (item :: before) outer),
      List.reverse_cons, List.append_assoc, List.singleton_append]

/-- So do the lexemes of fields, up to the closing brace. -/
theorem readFrom_fieldTokens (fields : List (Quoted × Json)) (hfields : fields ≠ [])
    {e : Expectation} {before : List (Quoted × Json)} {outer : Context}
    (he : e.TakesName before outer) (rest : List Lexeme) :
    readFrom .shape e (unplaced (fieldTokens fields ++ .closeBrace :: rest)) =
      readFrom .shape (.separator outer (.object (before.reverse ++ fields))) (unplaced rest) := by
  match fields with
  | [] => exact absurd rfl hfields
  | [(name, value)] =>
    rw [fieldTokens, List.cons_append, List.cons_append, readFrom_name he,
      readFrom_cons (l := .colon) rfl, readFrom_tokens value (.value _),
      readFrom_cons (l := .closeBrace) rfl, List.reverse_cons]
  | (name, value) :: next :: fields =>
    rw [fieldTokens, List.cons_append, List.cons_append, List.append_assoc, List.cons_append,
      readFrom_name he, readFrom_cons (l := .colon) rfl, readFrom_tokens value (.value _),
      readFrom_cons (l := .comma) rfl,
      readFrom_fieldTokens (next :: fields) (List.cons_ne_nil _ _)
        (.nextName ((name, value) :: before) outer),
      List.reverse_cons, List.append_assoc, List.singleton_append]

end

/-- The lexemes of a document are read as the document. -/
theorem readFrom_document (document : Json) :
    readFrom .shape (.value .top) (unplaced (tokens document)) = .ok document := by
  have h := readFrom_tokens document (.value .top) []
  rw [List.append_nil] at h
  exact h

/-! ## What texts are read as -/

/-- Where a number is read, the text ends or goes on with a comma or a closing bracket. -/
theorem ends_of_spells {s : List Char} {ls : List Lexeme} (h : Spells s ls) {context : Context}
    {v document : Json}
    (hread : readFrom .shape (.separator context v) (unplaced ls) = .ok document) : Ends s := by
  cases h with
  | done hgap =>
    have hend : Ends ([] : List Char) := nofun
    simpa using ends_gap hgap hend
  | lexeme hgap hl hrest =>
    obtain ⟨next, hstep, -⟩ := bind_eq_ok.1 hread
    apply ends_gap hgap
    rcases (taken_of_separator hstep).1 with rfl | rfl | rfl <;>
      (cases hl; exact ends_cons (by decide) _)

/-- Behind a number, a separator is expected. -/
theorem separator_of_step {e next : Expectation} {v : Json} {place : List Char}
    (h : step .shape e ⟨.atom v, place⟩ = .ok next) : ∃ context, next = .separator context v := by
  cases e with
  | value _ | firstItem _ | nextItem _ _ =>
    cases h
    exact ⟨_, rfl⟩
  | firstName _ | nextName _ _ | colon _ _ _ => cases h
  | separator context _ => cases context <;> cases h

/-- A text that spells lexemes is read as they are. -/
theorem readFrom_of_spells {s : List Char} {ls : List Lexeme} (h : Spells s ls) {e : Expectation}
    {document : Json} (hread : readFrom .shape e (unplaced ls) = .ok document) :
    readFrom .shape e (lexemes .shape s) = .ok document := by
  induction h generalizing e with
  | done hgap =>
    have hlexemes := lexemes_gap hgap .shape []
    rw [List.append_nil] at hlexemes
    rw [hlexemes, lexemes]
    exact hread
  | @lexeme gap s rest l ls hgap hl hrest ih =>
    obtain ⟨next, hstep, hnext⟩ := bind_eq_ok.1 hread
    have hends (n : Numeral) (hn : l = .atom (.number n)) : Ends rest := by
      subst hn
      obtain ⟨context, rfl⟩ := separator_of_step hstep
      exact ends_of_spells hrest hnext
    rw [lexemes_gap hgap, lexemes_of_begins (begins_of_isSpelled hl hends), readFrom,
      step_lexeme hstep, ok_bind]
    exact ih hnext

/-- Exactly the texts that spell a document are read as the document. -/
theorem read?_eq_some_iff {text : String} {document : Json} :
    read? text = some document ↔ document.IsSpelled text := by
  have hread : read? text = some document ↔ read .shape text = .ok document := by
    unfold read?
    cases read .shape text <;> simp [Except.toOption]
  rw [hread]
  constructor
  · intro h
    obtain ⟨ls, hls, htokens⟩ := spells_of_readFrom h
    rw [Expectation.taken, Context.taken, List.nil_append] at htokens
    rw [IsSpelled, htokens]
    exact hls
  · exact fun h => readFrom_of_spells h (readFrom_document document)

end ConsentGate.Json
