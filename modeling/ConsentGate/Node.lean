import ConsentGate.Decimal.Shortest
import ConsentGate.Entries

/-!
# Settings nodes

A settings document is a tree of scalars, lists and tables, whatever text it came from. `nil` stands
where a list was extended past its end.
-/

namespace ConsentGate

/-- A node of a settings document. -/
inductive Node where
  | nil
  | boolean (b : Bool)
  | integer (i : Int)
  | float (x : Binary64)
  | text (s : String)
  | list (items : List Node)
  | table (entries : List (String × Node))

namespace Node

instance : Inhabited Node := ⟨nil⟩

/-- The entries of a table; any other node counts as an empty table. -/
def entries : Node → List (String × Node)
  | table entries => entries
  | _ => []

/-- The items of a list; any other node counts as an empty list. -/
def items : Node → List Node
  | list items => items
  | _ => []

/-- The node under a key of a table. -/
def get? (node : Node) (key : String) : Option Node := node.entries.lookup key

/-- A node that is a table. -/
def IsTable (node : Node) : Prop := ∃ entries, node = .table entries

instance : (node : Node) → Decidable node.IsTable
  | .table entries => .isTrue ⟨entries, rfl⟩
  | .nil | .boolean _ | .integer _ | .float _ | .text _ | .list _ => .isFalse nofun

end Node

/-- The value of a key in a list of entries is changed, or the key is added behind them. -/
def upsert {α : Type} (key : String) (change : Option α → α) : List (String × α) → List (String × α)
  | [] => [(key, change none)]
  | (k, v) :: rest =>
    if k = key then (k, change (some v)) :: rest else (k, v) :: upsert key change rest

/-- Changing a key changes what is found under it, and nothing else. -/
theorem lookup_upsert {α : Type} {key : String} {change : Option α → α}
    {entries : List (String × α)} (k : String) :
    (upsert key change entries).lookup k =
      if k = key then some (change (entries.lookup key)) else entries.lookup k := by
  induction entries with
  | nil =>
    by_cases h : k = key
    · simp [upsert, h]
    · simp [upsert, List.lookup_cons, beq_false_of_ne h, h]
  | cons e rest ih =>
    obtain ⟨k', v⟩ := e
    unfold upsert
    by_cases hk : k' = key
    · subst hk
      by_cases h : k = k'
      · simp [h]
      · simp [List.lookup_cons, beq_false_of_ne h, h]
    · by_cases h : k = key
      · subst h
        have h' : k ≠ k' := fun e => hk e.symm
        simp [List.lookup_cons, beq_false_of_ne h', hk, ih]
      · by_cases h' : k = k'
        · simp [hk, h']
        · simp [List.lookup_cons, beq_false_of_ne h', hk, h, ih]

/-- A new key is added behind the others. -/
theorem upsert_of_not_mem {α : Type} {key : String} (change : Option α → α)
    {entries : List (String × α)} (h : key ∉ entries.map Prod.fst) :
    upsert key change entries = entries ++ [(key, change none)] := by
  induction entries with
  | nil => rfl
  | cons entry entries ih =>
    rw [List.map_cons, List.mem_cons, not_or] at h
    rw [upsert, if_neg fun heq => h.1 heq.symm, ih h.2, List.cons_append]

/-- A key that is there keeps its place. -/
theorem upsert_append {α : Type} {key : String} (change : Option α → α)
    {before : List (String × α)} (h : key ∉ before.map Prod.fst) (value : α)
    (after : List (String × α)) :
    upsert key change (before ++ (key, value) :: after) =
      before ++ (key, change (some value)) :: after := by
  induction before with
  | nil => rw [List.nil_append, upsert, if_pos rfl, List.nil_append]
  | cons entry before ih =>
    rw [List.map_cons, List.mem_cons, not_or] at h
    rw [List.cons_append, upsert, if_neg fun heq => h.1 heq.symm, ih h.2, List.cons_append]

theorem fst_mem_upsert {α : Type} {key k : String} {change : Option α → α}
    {entries : List (String × α)} (h : k ∈ (upsert key change entries).map Prod.fst) :
    k = key ∨ k ∈ entries.map Prod.fst := by
  induction entries with
  | nil => exact .inl (List.mem_singleton.1 h)
  | cons entry entries ih =>
    obtain ⟨k', v⟩ := entry
    unfold upsert at h
    split at h
    · exact .inr h
    · rcases List.mem_cons.1 h with rfl | h
      · exact .inr List.mem_cons_self
      · exact (ih h).imp_right (List.mem_cons_of_mem _)

/-- Keys that stand once do so after a change. -/
theorem nodup_upsert {α : Type} {key : String} {change : Option α → α}
    {entries : List (String × α)} (h : (entries.map Prod.fst).Nodup) :
    ((upsert key change entries).map Prod.fst).Nodup := by
  induction entries with
  | nil => exact List.nodup_cons.2 ⟨List.not_mem_nil, List.nodup_nil⟩
  | cons entry entries ih =>
    obtain ⟨k', v⟩ := entry
    have hcons := List.nodup_cons.1 h
    unfold upsert
    split
    · exact h
    · rename_i hne
      refine List.nodup_cons.2 ⟨fun hmem => ?_, ih hcons.2⟩
      rcases fst_mem_upsert hmem with heq | hmem
      · exact hne heq
      · exact hcons.1 hmem

/-- The change only sees what was there. -/
theorem upsert_eq_of_lookup {α : Type} (key : String) (change : Option α → α)
    (entries : List (String × α)) :
    upsert key change entries = upsert key (fun _ => change (entries.lookup key)) entries := by
  induction entries with
  | nil => rfl
  | cons entry entries ih =>
    obtain ⟨k', v⟩ := entry
    by_cases hk : k' = key
    · subst hk
      rw [upsert, upsert, if_pos rfl, if_pos rfl, List.lookup_cons_self]
    · have hne : (key == k') = false := beq_false_of_ne fun heq => hk heq.symm
      rw [upsert, upsert, if_neg hk, if_neg hk, List.lookup_cons, hne, ← ih]

end ConsentGate
