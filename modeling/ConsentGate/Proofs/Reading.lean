import Mathlib.Data.List.Perm.Basic

/-!
# Reading step by step

What is read in steps is read again from something else if each step is. A list is read if each of
its items is, and then item by item, so the order of the items carries over, and an item may be
replaced by one that is read alike.

Results:

* `accepted_iff`: when a value that is checked after it is read is accepted.
* `bind_eq_some_of_imp`: reading in two steps.
* `mapM_eq_some_iff`, `exists_mapM_iff`: what a list is read as, and when it can be read.
* `mem_iff_of_mapM`: which values are read.
* `exists_mapM_of_perm`, `mapM_replace`: lists with items in another order, and with another item.
-/

namespace ConsentGate

/-- A value that is read is accepted if checking it finds no fault. -/
theorem accepted_iff {ε φ α : Type} {outcome : Except ε α} {read : Option α} {check : α → Option φ}
    {fault : φ → ε} (hnone : read = none → ∃ e, outcome = .error e)
    (hsome : ∀ a, read = some a → outcome = (check a).elim (.ok a) fun f => .error (fault f))
    {a : α} : outcome = .ok a ↔ read = some a ∧ check a = none := by
  cases read with
  | none =>
    obtain ⟨e, rfl⟩ := hnone rfl
    exact ⟨nofun, nofun⟩
  | some value =>
    rw [hsome value rfl, Option.some.injEq]
    cases hcheck : check value with
    | none =>
      rw [Option.elim_none, Except.ok.injEq]
      exact ⟨fun h => ⟨h, h ▸ hcheck⟩, And.left⟩
    | some f =>
      refine ⟨nofun, fun ⟨h, hnone⟩ => ?_⟩
      rw [← h, hcheck] at hnone
      cases hnone

variable {α β : Type} {f : α → Option β} {as as' : List α} {bs : List β}

/-- What is read in two steps is read again if each step is. -/
theorem bind_eq_some_of_imp {γ : Type} {o o' : Option β} {g g' : β → Option γ}
    (ho : ∀ b, o = some b → o' = some b) (hg : ∀ b c, g b = some c → g' b = some c) (c : γ)
    (h : o.bind g = some c) : o'.bind g' = some c := by
  obtain ⟨b, hb, hc⟩ := Option.bind_eq_some_iff.1 h
  exact Option.bind_eq_some_iff.2 ⟨b, ho b hb, hg b c hc⟩

/-- Items are read together if each is read. -/
theorem mapM_eq_some_iff : as.mapM f = some bs ↔ List.Forall₂ (fun a b => f a = some b) as bs := by
  induction as generalizing bs with
  | nil =>
    rw [List.mapM_nil, List.forall₂_nil_left_iff, Option.pure_def, Option.some.injEq, eq_comm]
  | cons a as ih =>
    rw [List.mapM_cons, List.forall₂_cons_left_iff]
    simp only [Option.bind_eq_bind, Option.bind_eq_some_iff, Option.pure_def, Option.some.injEq, ih]
    constructor
    · rintro ⟨b, hb, bs, hbs, rfl⟩
      exact ⟨b, bs, hb, hbs, rfl⟩
    · rintro ⟨b, bs, hb, hbs, rfl⟩
      exact ⟨b, hb, bs, hbs, rfl⟩

/-- Items in another order are read in that order. -/
theorem exists_mapM_of_perm (h : as.Perm as') (hm : as.mapM f = some bs) :
    ∃ bs', as'.mapM f = some bs' ∧ bs'.Perm bs := by
  obtain ⟨bs', hbs', hperm⟩ := List.perm_comp_forall₂ h.symm (mapM_eq_some_iff.1 hm)
  exact ⟨bs', mapM_eq_some_iff.2 hbs', hperm⟩

theorem mem_iff_of_mapM (hm : as.mapM f = some bs) {b : β} : b ∈ bs ↔ ∃ a ∈ as, f a = some b := by
  rw [mapM_eq_some_iff] at hm
  induction hm with
  | nil => simp
  | cons hab _ ih => simp [ih, hab, eq_comm]

/-- Items can be read together if each can be read. -/
theorem exists_mapM_iff : (∃ bs, as.mapM f = some bs) ↔ ∀ a ∈ as, ∃ b, f a = some b := by
  simp only [mapM_eq_some_iff]
  induction as with
  | nil => simp
  | cons a as ih =>
    rw [List.forall_mem_cons, ← ih]
    constructor
    · rintro ⟨_, hab | ⟨hab, hrest⟩⟩
      exact ⟨⟨_, hab⟩, ⟨_, hrest⟩⟩
    · rintro ⟨⟨b, hab⟩, ⟨bs, hrest⟩⟩
      exact ⟨b :: bs, .cons hab hrest⟩

/-- An item may be replaced by one that is read alike. -/
theorem mapM_replace {before after : List α} {a a' : α} (h : ∀ b, f a = some b → f a' = some b)
    (hm : (before ++ a :: after).mapM f = some bs) : (before ++ a' :: after).mapM f = some bs := by
  rw [List.mapM_append, List.mapM_cons] at hm ⊢
  cases ha : f a with
  | none =>
    rw [ha] at hm
    cases hbefore : before.mapM f <;> rw [hbefore] at hm <;> cases hm
  | some b =>
    rw [ha] at hm
    rw [h b ha]
    exact hm

end ConsentGate
