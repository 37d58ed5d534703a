import ConsentGate.Text.Run

/-!
# Blank text

The characters with the Unicode property `White_Space`, and texts that hold nothing else.

Results:

* `trim_eq_nil_iff`: trimming leaves nothing exactly when every character is blank.
* `trim_eq_iff`: trimming takes the blank characters at both ends away and nothing else.
-/

namespace ConsentGate.Text

/-- The characters with the property `White_Space`. -/
def isBlank (c : Char) : Bool :=
  let n := c.toNat
  (0x9 ≤ n && n ≤ 0xD) || n == 0x20 || n == 0x85 || n == 0xA0 || n == 0x1680 ||
    (0x2000 ≤ n && n ≤ 0x200A) || n == 0x2028 || n == 0x2029 || n == 0x202F || n == 0x205F ||
    n == 0x3000

/-- The characters without the blank ones at either end. -/
def trim (s : List Char) : List Char :=
  ((s.dropWhile isBlank).reverse.dropWhile isBlank).reverse

/-- A text without its blank ends. -/
def trimmed (s : String) : String := .ofList (trim s.toList)

/-- A text that is empty or holds blank characters only. -/
def IsBlank (s : String) : Prop := ∀ c ∈ s.toList, isBlank c = true

instance (s : String) : Decidable (IsBlank s) :=
  decidable_of_iff (s.toList.all isBlank = true) List.all_eq_true

theorem dropWhile_eq_nil_iff {α : Type} {p : α → Bool} {l : List α} :
    l.dropWhile p = [] ↔ ∀ a ∈ l, p a = true := by
  induction l with
  | nil => simp
  | cons a l ih =>
    by_cases h : p a = true
    · simp [h, ih]
    · simp [h]

/-- Trimming leaves nothing exactly when every character is blank. -/
theorem trim_eq_nil_iff {s : List Char} : trim s = [] ↔ ∀ c ∈ s, isBlank c = true := by
  unfold trim
  rw [List.reverse_eq_nil_iff, dropWhile_eq_nil_iff]
  constructor
  · intro h
    rw [← dropWhile_eq_nil_iff]
    cases hd : s.dropWhile isBlank with
    | nil => rfl
    | cons c r =>
      have hne : s.dropWhile isBlank ≠ [] := by simp [hd]
      have hc : isBlank c = false := by
        have := List.head_dropWhile_not isBlank hne
        simpa [hd] using this
      have := h c (by simp [hd])
      simp [hc] at this
  · intro h c hc
    rw [dropWhile_eq_nil_iff.2 h] at hc
    simp at hc

/-- No blank character stands at either end. -/
def IsTrimmed (s : List Char) : Prop :=
  (∀ c ∈ s.head?, isBlank c = false) ∧ ∀ c ∈ s.getLast?, isBlank c = false

instance (s : List Char) : Decidable (IsTrimmed s) :=
  decidable_of_iff (s.head?.all (!isBlank ·) ∧ s.getLast?.all (!isBlank ·)) (by
    simp [IsTrimmed, Option.all_eq_true])

/-- A text is another one with blank characters around it, and the other one has none at its
ends. -/
def TrimsTo (s t : List Char) : Prop :=
  ∃ before after, s = before ++ t ++ after ∧ (∀ c ∈ before, isBlank c = true) ∧
    (∀ c ∈ after, isBlank c = true) ∧ IsTrimmed t

theorem isBlank_head?_dropWhile {s : List Char} {c : Char}
    (h : (s.dropWhile isBlank).head? = some c) : isBlank c = false := by
  have hstops := List.head?_dropWhile_not isBlank s
  rw [h] at hstops
  exact hstops

theorem trimsTo_trim (s : List Char) : TrimsTo s (trim s) := by
  have hblank (l : List Char) : ∀ c ∈ l.takeWhile isBlank, isBlank c = true :=
    List.all_eq_true.1 List.all_takeWhile
  have hback : s.dropWhile isBlank =
      trim s ++ ((s.dropWhile isBlank).reverse.takeWhile isBlank).reverse := by
    rw [trim, ← List.reverse_append, List.takeWhile_append_dropWhile, List.reverse_reverse]
  refine ⟨s.takeWhile isBlank, ((s.dropWhile isBlank).reverse.takeWhile isBlank).reverse, ?_,
    hblank s, fun c hc => hblank _ c (List.mem_reverse.1 hc), fun c hc => ?_, fun c hc => ?_⟩
  · rw [List.append_assoc, ← hback, List.takeWhile_append_dropWhile]
  · apply isBlank_head?_dropWhile (s := s)
    rw [hback, List.head?_append, Option.mem_def.1 hc, Option.some_or]
  · rw [trim, List.getLast?_reverse] at hc
    exact isBlank_head?_dropWhile hc

/-- Trimming takes the blank characters at both ends away and nothing else. -/
theorem trim_eq_iff {s t : List Char} : trim s = t ↔ TrimsTo s t := by
  constructor
  · rintro rfl
    exact trimsTo_trim s
  · rintro ⟨before, after, rfl, hbefore, hafter, hhead, hlast⟩
    cases t with
    | nil =>
      rw [List.append_nil, trim_eq_nil_iff]
      exact fun c hc => (List.mem_append.1 hc).elim (hbefore c) (hafter c)
    | cons first t =>
      have hfront : (before ++ (first :: t ++ after)).dropWhile isBlank = first :: t ++ after :=
        dropWhile_append_of_stops hbefore fun c hc => hhead c hc
      have hback : (after.reverse ++ (first :: t).reverse).dropWhile isBlank =
          (first :: t).reverse := by
        apply dropWhile_append_of_stops
        · exact fun c hc => hafter c (List.mem_reverse.1 hc)
        · intro c hc
          rw [List.head?_reverse] at hc
          exact hlast c hc
      rw [trim, List.append_assoc, hfront, List.reverse_append, hback, List.reverse_reverse]

end ConsentGate.Text
