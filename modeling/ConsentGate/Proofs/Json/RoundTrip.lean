import ConsentGate.Json.Printer
import ConsentGate.Json.Record
import ConsentGate.Proofs.Json.Spelling

/-!
# Reading what is written

Every well-formed document can be read back from its text, in each layout that puts nothing but
white space between lexemes: the text spells the document, and the reader accepts exactly such
texts. A document is well-formed when its strings are free of the characters that only an escape can
write, and its numbers are numerals.

Results:

* `isSpelled_quotedChars`, `isSpelled_numeralChars`: what is written for a lexeme spells it.
* `spells_chars`: so does what is written for a document.
* `read?_render`: a document is read back from its text.
* `exists_isSpelled_iff`: exactly the well-formed documents have a text.
-/

namespace ConsentGate

/-! ## Well-formed documents -/

/-- The pieces of a string can stand between quotes. -/
def Quoted.WellFormed (q : Quoted) : Prop := ∀ piece ∈ q, piece.WellFormed

mutual

/-- The strings and numbers of a document are well-formed. -/
def Json.WellFormed : Json → Prop
  | .null | .bool _ => True
  | .number n => n.WellFormed
  | .string q => q.WellFormed
  | .array items => Json.ItemsWellFormed items
  | .object fields => Json.FieldsWellFormed fields

/-- All items of an array are well-formed. -/
def Json.ItemsWellFormed : List Json → Prop
  | [] => True
  | item :: items => item.WellFormed ∧ Json.ItemsWellFormed items

/-- All names and values of an object are well-formed. -/
def Json.FieldsWellFormed : List (Quoted × Json) → Prop
  | [] => True
  | (name, value) :: fields => name.WellFormed ∧ value.WellFormed ∧ Json.FieldsWellFormed fields

end

theorem Quoted.wellFormed_ofText (s : String) : (Quoted.ofText s).WellFormed := by
  intro piece hpiece
  obtain ⟨c, -, rfl⟩ := List.mem_map.1 hpiece
  unfold pieceOf
  split
  · trivial
  · rename_i hnone
    split
    · trivial
    · rename_i hc
      refine ⟨?_, ?_, hc⟩
      · rintro rfl
        exact absurd hnone (by decide)
      · rintro rfl
        exact absurd hnone (by decide)

theorem Quoted.wellFormed_of_isSpelled {q : Quoted} {s : List Char} (h : q.IsSpelled s) :
    q.WellFormed := by
  induction h with
  | nil => exact nofun
  | cons hpiece _ ih =>
    refine List.forall_mem_cons.2 ⟨?_, ih⟩
    cases hpiece with
    | plain h => exact h
    | short _ | unit _ => trivial

theorem Numeral.wellFormed_ofNat (n : Nat) : (Numeral.ofNat n).WellFormed where
  whole := Decimal.isDigits_toDigits n
  noLeadingZero _ h := Decimal.tail_eq_nil_of_toDigits h
  fraction _ h := by cases h
  exponent _ h := by cases h

namespace Json

theorem itemsWellFormed_iff {items : List Json} :
    ItemsWellFormed items ↔ ∀ item ∈ items, item.WellFormed := by
  induction items with
  | nil => simp [ItemsWellFormed]
  | cons item items ih => simp [ItemsWellFormed, ih]

theorem fieldsWellFormed_iff {fields : List (Quoted × Json)} :
    FieldsWellFormed fields ↔ ∀ field ∈ fields, field.1.WellFormed ∧ field.2.WellFormed := by
  induction fields with
  | nil => simp [FieldsWellFormed]
  | cons field fields ih => simp [FieldsWellFormed, ih, and_assoc]

theorem wellFormed_record {fields : List (String × Json)}
    (h : ∀ field ∈ fields, field.2.WellFormed) : (record fields).WellFormed := by
  rw [record, Json.WellFormed]
  induction fields with
  | nil => trivial
  | cons field fields ih =>
    exact ⟨Quoted.wellFormed_ofText _, h field List.mem_cons_self,
      ih fun f hf => h f (List.mem_cons_of_mem _ hf)⟩

theorem wellFormed_ofNat (n : Nat) : (ofNat n).WellFormed := Numeral.wellFormed_ofNat n

theorem wellFormed_ofString (s : String) : (ofString s).WellFormed := Quoted.wellFormed_ofText s

theorem wellFormed_map {α : Type} {write : α → Json} (h : ∀ a, (write a).WellFormed)
    (as : List α) : (array (as.map write)).WellFormed :=
  itemsWellFormed_iff.2 fun item hitem => by
    obtain ⟨a, -, rfl⟩ := List.mem_map.1 hitem
    exact h a

/-! ## Strings and numbers -/

theorem unit?_of_hexDigits {code : UInt16} {a b c d : Char}
    (h : Text.hexDigits 4 code.toNat = [a, b, c, d]) : unit? a b c d = some code := by
  rw [unit?, ← h, Text.hexNumber?_hexDigits]
  simp

/-- Four characters. -/
theorem exists_of_length_four {α : Type} {s : List α} (h : s.length = 4) :
    ∃ a b c d, s = [a, b, c, d] := by
  match s, h with
  | [a, b, c, d], _ => exact ⟨a, b, c, d, rfl⟩

theorem isSpelled_pieceChars {piece : Piece} (h : piece.WellFormed) :
    piece.IsSpelled (pieceChars piece) := by
  cases piece with
  | plain c => exact .plain h
  | short e => exact .short e
  | unit code =>
    obtain ⟨a, b, c, d, hdigits⟩ :=
      exists_of_length_four (Text.length_hexDigits (by decide) code.toNat_lt)
    rw [pieceChars, hdigits]
    exact .unit (unit?_of_hexDigits hdigits)

theorem isSpelled_flatMap {q : Quoted} (h : q.WellFormed) :
    q.IsSpelled (q.flatMap pieceChars) := by
  induction q with
  | nil => exact .nil
  | cons piece q ih =>
    rw [List.flatMap_cons]
    exact .cons (isSpelled_pieceChars (h piece List.mem_cons_self))
      (ih fun p hp => h p (List.mem_cons_of_mem _ hp))

theorem isSpelled_quotedChars {q : Quoted} (h : q.WellFormed) :
    (Lexeme.string q).IsSpelled (quotedChars q) := ⟨_, isSpelled_flatMap h, rfl⟩

theorem isSpelled_exponentChars (e : Exponent) : e.IsSpelled (exponentChars e) := by
  obtain ⟨negative, digits⟩ := e
  cases negative with
  | true => exact ⟨'e', ['-'], .inl rfl, List.mem_singleton_self _, rfl⟩
  | false => exact ⟨'e', [], .inl rfl, List.mem_cons_self, rfl⟩

theorem isSpelled_numeralChars {n : Numeral} (h : n.WellFormed) :
    n.IsSpelled (numeralChars n) := by
  refine ⟨h, n.exponent.elim [] exponentChars, fun e he => ?_, fun hnone => ?_, ?_⟩
  · rw [he]
    exact isSpelled_exponentChars e
  · rw [hnone]
    rfl
  · rw [numeralChars, List.append_assoc, List.append_assoc]

/-! ## Documents -/

/-- A layout that puts white space alone between lexemes. -/
structure Layout.Spaced (layout : Layout) : Prop where
  lineBreak : ∀ depth, IsGap (layout.lineBreak depth)
  colon : ∃ gap, layout.colon = ':' :: gap ∧ IsGap gap

theorem Layout.spaced_compact : Layout.compact.Spaced where
  lineBreak _ := nofun
  colon := ⟨[], rfl, nofun⟩

theorem Layout.spaced_indented : Layout.indented.Spaced where
  lineBreak depth c hc := by
    rcases List.mem_cons.1 hc with rfl | hc
    · rfl
    · rw [List.eq_of_mem_replicate hc]
      rfl
  colon := ⟨[' '], rfl, by simp [IsGap, isSpace]⟩

theorem itemTokens_cons (item : Json) (items : List Json) :
    itemTokens (item :: items) =
      tokens item ++ items.flatMap fun item => .comma :: tokens item := by
  induction items generalizing item with
  | nil => rw [itemTokens, List.flatMap_nil, List.append_nil]
  | cons next items ih => rw [itemTokens, ih, List.flatMap_cons, List.cons_append]

theorem fieldTokens_cons (name : Quoted) (value : Json) (fields : List (Quoted × Json)) :
    fieldTokens ((name, value) :: fields) = .string name :: .colon :: (tokens value ++
      fields.flatMap fun field => .comma :: .string field.1 :: .colon :: tokens field.2) := by
  induction fields generalizing name value with
  | nil => rw [fieldTokens, List.flatMap_nil, List.append_nil]
  | cons next fields ih =>
    obtain ⟨nextName, nextValue⟩ := next
    rw [fieldTokens, ih, List.flatMap_cons, List.cons_append, List.cons_append, List.cons_append]

/-- A mark is spelled by itself in front of any text. -/
theorem Spells.mark {c : Char} {l : Lexeme} (h : l.IsSpelled [c]) {s : List Char}
    {ls : List Lexeme} (hs : Spells s ls) : Spells (c :: s) (l :: ls) :=
  (Spells.single h).append hs

section Documents

variable {layout : Layout} (hl : layout.Spaced)
include hl

mutual

/-- What is written for a document spells it. -/
theorem spells_chars (doc : Json) (hdoc : doc.WellFormed) (depth : Nat) :
    Spells (chars layout depth doc) (tokens doc) := by
  match doc with
  | .null | .bool true | .bool false => exact .single rfl
  | .number n => exact .single (isSpelled_numeralChars hdoc)
  | .string q => exact .single (isSpelled_quotedChars hdoc)
  | .array [] => exact .mark (l := .openBracket) rfl (.single (l := .closeBracket) rfl)
  | .array (item :: items) =>
    obtain ⟨hitem, hitems⟩ := hdoc
    have hfirst := (spells_chars item hitem (depth + 1)).gap (hl.lineBreak (depth + 1))
    have hlater := spells_itemChars items hitems (depth + 1)
    have hclose : Spells (layout.lineBreak depth ++ [']']) [.closeBracket] :=
      (Spells.single (l := .closeBracket) rfl).gap (hl.lineBreak depth)
    rw [tokens, itemTokens_cons, chars, List.append_assoc]
    exact .mark (l := .openBracket) rfl ((hfirst.append hlater).append hclose)
  | .object [] => exact .mark (l := .openBrace) rfl (.single (l := .closeBrace) rfl)
  | .object ((name, value) :: fields) =>
    obtain ⟨hname, hvalue, hfields⟩ := hdoc
    obtain ⟨gap, hcolon, hgap⟩ := hl.colon
    have hbefore := (Spells.single (isSpelled_quotedChars hname)).gap (hl.lineBreak (depth + 1))
    have hbehind := (spells_chars value hvalue (depth + 1)).gap hgap
    have hfirst := hbefore.append (.mark (l := .colon) rfl hbehind)
    have hlater := spells_fieldChars fields hfields (depth + 1)
    have hclose : Spells (layout.lineBreak depth ++ ['\x7d']) [.closeBrace] :=
      (Spells.single (l := .closeBrace) rfl).gap (hl.lineBreak depth)
    rw [tokens, fieldTokens_cons, chars, hcolon]
    simpa using Spells.mark (l := .openBrace) rfl ((hfirst.append hlater).append hclose)

/-- So does what is written for later items, with a comma in front of each. -/
theorem spells_itemChars (items : List Json) (hitems : ItemsWellFormed items) (depth : Nat) :
    Spells (itemChars layout depth items) (items.flatMap fun item => .comma :: tokens item) := by
  match items with
  | [] => exact .done nofun
  | item :: items =>
    obtain ⟨hitem, hitems⟩ := hitems
    have hfirst := (spells_chars item hitem depth).gap (hl.lineBreak depth)
    rw [List.flatMap_cons, itemChars]
    exact .mark (l := .comma) rfl (hfirst.append (spells_itemChars items hitems depth))

/-- So does what is written for later fields, with a comma in front of each. -/
theorem spells_fieldChars (fields : List (Quoted × Json)) (hfields : FieldsWellFormed fields)
    (depth : Nat) : Spells (fieldChars layout depth fields)
      (fields.flatMap fun field => .comma :: .string field.1 :: .colon :: tokens field.2) := by
  match fields with
  | [] => exact .done nofun
  | (name, value) :: fields =>
    obtain ⟨hname, hvalue, hfields⟩ := hfields
    obtain ⟨gap, hcolon, hgap⟩ := hl.colon
    have hbefore := (Spells.single (isSpelled_quotedChars hname)).gap (hl.lineBreak depth)
    have hbehind := (spells_chars value hvalue depth).gap hgap
    have hfirst := hbefore.append (.mark (l := .colon) rfl hbehind)
    have hlater := spells_fieldChars fields hfields depth
    rw [List.flatMap_cons, fieldChars, hcolon]
    simpa using Spells.mark (l := .comma) rfl (hfirst.append hlater)

end

/-- A document is read back from its text. -/
theorem read?_render {doc : Json} (hdoc : doc.WellFormed) :
    read? (doc.render layout) = some doc := by
  rw [read?_eq_some_iff, IsSpelled, render, String.toList_ofList]
  exact spells_chars hl doc hdoc 0

end Documents

/-! ## Documents that have a text -/

theorem Spells.exists_of_mem {s : List Char} {ls : List Lexeme} (h : Spells s ls) {l : Lexeme}
    (hl : l ∈ ls) : ∃ t, l.IsSpelled t := by
  induction h with
  | done _ => cases hl
  | lexeme _ hfirst _ ih =>
    rcases List.mem_cons.1 hl with rfl | hl
    · exact ⟨_, hfirst⟩
    · exact ih hl

mutual

/-- A document is well-formed if each of its lexemes can be spelled. -/
theorem wellFormed_of_tokens (doc : Json) (h : ∀ l ∈ tokens doc, ∃ s, l.IsSpelled s) :
    doc.WellFormed := by
  match doc with
  | .null | .bool _ => trivial
  | .number n =>
    obtain ⟨s, hs⟩ := h _ (List.mem_singleton_self _)
    exact hs.1
  | .string q =>
    obtain ⟨s, t, ht, -⟩ := h _ (List.mem_singleton_self _)
    exact Quoted.wellFormed_of_isSpelled ht
  | .array items =>
    exact wellFormed_of_itemTokens items fun l hl =>
      h l (List.mem_cons_of_mem _ (List.mem_append_left _ hl))
  | .object fields =>
    exact wellFormed_of_fieldTokens fields fun l hl =>
      h l (List.mem_cons_of_mem _ (List.mem_append_left _ hl))

theorem wellFormed_of_itemTokens (items : List Json)
    (h : ∀ l ∈ itemTokens items, ∃ s, l.IsSpelled s) : ItemsWellFormed items := by
  match items with
  | [] => trivial
  | [item] => exact ⟨wellFormed_of_tokens item h, trivial⟩
  | item :: next :: items =>
    rw [itemTokens, List.forall_mem_append, List.forall_mem_cons] at h
    exact ⟨wellFormed_of_tokens item h.1, wellFormed_of_itemTokens (next :: items) h.2.2⟩

theorem wellFormed_of_fieldTokens (fields : List (Quoted × Json))
    (h : ∀ l ∈ fieldTokens fields, ∃ s, l.IsSpelled s) : FieldsWellFormed fields := by
  match fields with
  | [] => trivial
  | [(name, value)] =>
    rw [fieldTokens, List.forall_mem_cons, List.forall_mem_cons] at h
    obtain ⟨⟨s, t, hname, -⟩, -, hvalue⟩ := h
    exact ⟨Quoted.wellFormed_of_isSpelled hname, wellFormed_of_tokens value hvalue, trivial⟩
  | (name, value) :: next :: fields =>
    rw [fieldTokens, List.forall_mem_cons, List.forall_mem_cons, List.forall_mem_append,
      List.forall_mem_cons] at h
    obtain ⟨⟨s, t, hname, -⟩, -, hvalue, -, hfields⟩ := h
    exact ⟨Quoted.wellFormed_of_isSpelled hname, wellFormed_of_tokens value hvalue,
      wellFormed_of_fieldTokens (next :: fields) hfields⟩

end

/-- Exactly the well-formed documents have a text. -/
theorem exists_isSpelled_iff {doc : Json} : (∃ text, doc.IsSpelled text) ↔ doc.WellFormed := by
  constructor
  · rintro ⟨text, h⟩
    exact wellFormed_of_tokens doc fun l hl => h.exists_of_mem hl
  · exact fun h => ⟨_, read?_eq_some_iff.1 (read?_render Layout.spaced_compact h)⟩

end Json
end ConsentGate
