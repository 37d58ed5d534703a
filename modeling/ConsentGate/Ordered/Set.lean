/-!
# Ordered sets

A finite set over a linear order is held as its strictly ascending list of elements. Each set has
one such list, so two sets with the same members are equal.

Results:

* `OrderedSet.mem_insert`, `OrderedSet.mem_ofList`: what inserting and collecting put in.
* `OrderedSet.ext`: a set is determined by its members.
-/

namespace ConsentGate

/-- The relation facts that an ascending list needs of its element order. -/
class Ascends (α : Type) [LT α] : Prop where
  irrefl : ∀ a : α, ¬ a < a
  trans : ∀ a b c : α, a < b → b < c → a < c
  trichotomy : ∀ a b : α, a < b ∨ a = b ∨ b < a

theorem Ascends.eq_of_not_lt {α : Type} [LT α] [Ascends α] {a b : α} (h : ¬ a < b)
    (h' : ¬ b < a) : a = b := by
  rcases Ascends.trichotomy a b with hab | hab | hab
  · exact absurd hab h
  · exact hab
  · exact absurd hab h'

instance : Ascends String where
  irrefl _ := Std.lt_irrefl
  trans _ _ _ := Std.lt_trans
  trichotomy := Std.lt_trichotomy

instance : Ascends UInt8 where
  irrefl _ := Std.lt_irrefl
  trans _ _ _ := Std.lt_trans
  trichotomy := Std.lt_trichotomy

instance : Ascends UInt32 where
  irrefl _ := Std.lt_irrefl
  trans _ _ _ := Std.lt_trans
  trichotomy := Std.lt_trichotomy

/-- A finite set, listed in strictly ascending order. -/
structure OrderedSet (α : Type) [LT α] where
  /-- The members, smallest first. -/
  toList : List α
  /-- Each member is below all later ones. -/
  ascending : toList.Pairwise (· < ·)
  deriving DecidableEq

namespace OrderedSet

variable {α : Type} [LT α]

/-- The set without members. -/
def empty : OrderedSet α := ⟨[], .nil⟩

instance : EmptyCollection (OrderedSet α) := ⟨empty⟩

instance : Inhabited (OrderedSet α) := ⟨empty⟩

instance : Membership α (OrderedSet α) := ⟨fun s a => a ∈ s.toList⟩

theorem mem_def {s : OrderedSet α} {a : α} : a ∈ s ↔ a ∈ s.toList := Iff.rfl

instance [DecidableEq α] (a : α) (s : OrderedSet α) : Decidable (a ∈ s) :=
  inferInstanceAs (Decidable (a ∈ s.toList))

@[simp] theorem not_mem_empty (a : α) : ¬ a ∈ (∅ : OrderedSet α) := List.not_mem_nil

/-- Whether `a` is a member. -/
def contains [DecidableEq α] (s : OrderedSet α) (a : α) : Bool := decide (a ∈ s)

@[simp] theorem contains_iff [DecidableEq α] {s : OrderedSet α} {a : α} :
    s.contains a = true ↔ a ∈ s := by
  simp [contains]

variable [DecidableLT α]

/-- An ascending list with `a` put in its place; a member stays as it is. -/
def insertInto (a : α) : List α → List α
  | [] => [a]
  | b :: bs => if a < b then a :: b :: bs else if b < a then b :: insertInto a bs else b :: bs

theorem mem_insertInto [Ascends α] {a x : α} {l : List α} : x ∈ insertInto a l ↔ x = a ∨ x ∈ l := by
  induction l with
  | nil => simp [insertInto]
  | cons b bs ih =>
    unfold insertInto
    split
    · simp
    · split
      · simp only [List.mem_cons, ih]
        grind
      · rename_i hab hba
        simp [Ascends.eq_of_not_lt hab hba]

theorem pairwise_insertInto [Ascends α] {a : α} {l : List α} (h : l.Pairwise (· < ·)) :
    (insertInto a l).Pairwise (· < ·) := by
  induction l with
  | nil => simp [insertInto]
  | cons b bs ih =>
    rw [List.pairwise_cons] at h
    unfold insertInto
    split
    · rename_i hab
      refine List.pairwise_cons.2 ⟨?_, List.pairwise_cons.2 h⟩
      intro x hx
      rcases List.mem_cons.1 hx with rfl | hx
      · exact hab
      · exact Ascends.trans _ _ _ hab (h.1 x hx)
    · split
      · rename_i hba
        refine List.pairwise_cons.2 ⟨?_, ih h.2⟩
        intro x hx
        rcases mem_insertInto.1 hx with rfl | hx
        · exact hba
        · exact h.1 x hx
      · exact List.pairwise_cons.2 h

variable [Ascends α]

/-- The set with `a` added. -/
def insert (s : OrderedSet α) (a : α) : OrderedSet α :=
  ⟨insertInto a s.toList, pairwise_insertInto s.ascending⟩

@[simp] theorem mem_insert {s : OrderedSet α} {a x : α} : x ∈ s.insert a ↔ x = a ∨ x ∈ s :=
  mem_insertInto

/-- The set with every element of a list added. -/
def insertAll (s : OrderedSet α) (as : List α) : OrderedSet α := as.foldl insert s

@[simp] theorem mem_insertAll {s : OrderedSet α} {as : List α} {x : α} :
    x ∈ s.insertAll as ↔ x ∈ s ∨ x ∈ as := by
  unfold insertAll
  induction as generalizing s with
  | nil => simp
  | cons a as ih => simp only [List.foldl_cons, ih, mem_insert, List.mem_cons]; grind

/-- The members of a list, in any order and with repetitions, as a set. -/
def ofList (as : List α) : OrderedSet α := insertAll ∅ as

@[simp] theorem mem_ofList {as : List α} {x : α} : x ∈ ofList as ↔ x ∈ as := by
  simp [ofList, mem_insertAll]

omit [DecidableLT α] in
/-- A set is determined by its members. -/
theorem ext {s t : OrderedSet α} (h : ∀ a, a ∈ s ↔ a ∈ t) : s = t := by
  obtain ⟨l, hl⟩ := s
  obtain ⟨m, hm⟩ := t
  simp only [mem_def] at h
  congr
  induction l generalizing m with
  | nil =>
    cases m with
    | nil => rfl
    | cons b bs => exact absurd ((h b).2 List.mem_cons_self) List.not_mem_nil
  | cons a as ih =>
    cases m with
    | nil => exact absurd ((h a).1 List.mem_cons_self) List.not_mem_nil
    | cons b bs =>
      rw [List.pairwise_cons] at hl hm
      have hab : a = b := by
        rcases List.mem_cons.1 ((h a).1 List.mem_cons_self) with e | ha
        · exact e
        · rcases List.mem_cons.1 ((h b).2 List.mem_cons_self) with e | hb
          · exact e.symm
          · exact absurd (Ascends.trans _ _ _ (hl.1 b hb) (hm.1 a ha)) (Ascends.irrefl a)
      subst hab
      congr 1
      refine ih hl.2 bs hm.2 fun x => ?_
      constructor
      · intro hx
        rcases List.mem_cons.1 ((h x).1 (List.mem_cons_of_mem _ hx)) with e | hx'
        · subst e; exact absurd (hl.1 x hx) (Ascends.irrefl x)
        · exact hx'
      · intro hx
        rcases List.mem_cons.1 ((h x).2 (List.mem_cons_of_mem _ hx)) with e | hx'
        · subst e; exact absurd (hm.1 x hx) (Ascends.irrefl x)
        · exact hx'

/-- Collecting the members of a set gives the set. -/
@[simp] theorem ofList_toList (s : OrderedSet α) : ofList s.toList = s := ext fun _ => mem_ofList

end OrderedSet

end ConsentGate
