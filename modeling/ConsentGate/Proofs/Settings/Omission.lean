import ConsentGate.Proofs.Toml.Documents

/-!
# Leaving entries out

What a table says where it says what some defaults say may be left out of it: single values, lists
and whole tables, at any depth, and the tables that become empty by this as well. What is left may
stand in any order. Of a table whose keys stand once, this leaves under each key the node that is
there, a table with some of its entries, or nothing; and what could be written as sections still
can.

Results:

* `Node.Omits.writable`: what is left of entries that can be written can be written.
* `Node.Reorders.lookup`: in another order, entries have the same under each key.
* `Node.Remains.leaves`: what is left under a key.
-/

namespace ConsentGate

open Toml (Written Writable nodeEntries)

namespace Node

/-- The entries of the table under a key, if there is one. -/
def entriesAt (entries : List (String × Node)) (key : String) : List (String × Node) :=
  ((entries.lookup key).getD .nil).entries

/-- Entries with some of them left out, or some in the tables below them: those that say what the
defaults say at their place. A table of which nothing is left may be left out or kept. -/
inductive Omits : (defaults entries rest : List (String × Node)) → Prop
  | nil {defaults : List (String × Node)} : Omits defaults [] []
  | keep {defaults entries rest : List (String × Node)} (entry : String × Node)
      (h : Omits defaults entries rest) : Omits defaults (entry :: entries) (entry :: rest)
  | keepTable {defaults entries rest inner inner' : List (String × Node)} {key : String}
      (hinner : Omits (entriesAt defaults key) inner inner') (h : Omits defaults entries rest) :
      Omits defaults ((key, .table inner) :: entries) ((key, .table inner') :: rest)
  | drop {defaults entries rest : List (String × Node)} {key : String} {node : Node}
      (hdefault : defaults.lookup key = some node) (h : Omits defaults entries rest) :
      Omits defaults ((key, node) :: entries) rest
  | dropEmptied {defaults entries rest inner : List (String × Node)} {key : String}
      (hinner : Omits (entriesAt defaults key) inner []) (h : Omits defaults entries rest) :
      Omits defaults ((key, .table inner) :: entries) rest

/-- Entries in another order, those of tables below them as well. -/
inductive Reorders : (entries entries' : List (String × Node)) → Prop
  | perm {entries entries' : List (String × Node)} (h : entries.Perm entries') :
      Reorders entries entries'
  | inside {inner inner' : List (String × Node)} (before after : List (String × Node))
      (key : String) (h : Reorders inner inner') :
      Reorders (before ++ (key, .table inner) :: after) (before ++ (key, .table inner') :: after)
  | trans {entries entries' entries'' : List (String × Node)} (h : Reorders entries entries')
      (h' : Reorders entries' entries'') : Reorders entries entries''

/-- Entries with some left out, in some order. -/
def Remains (defaults entries rest : List (String × Node)) : Prop :=
  ∃ inOrder, Omits defaults entries inOrder ∧ Reorders inOrder rest

/-- What is left of a node under a key: the node, a table with some of its entries, or nothing. -/
inductive Leaves (defaults : List (String × Node)) (key : String) (node : Node) :
    Option Node → Prop
  | kept : Leaves defaults key node (some node)
  | keptTable {inner inner' : List (String × Node)} (htable : node = .table inner)
      (hinner : Remains (entriesAt defaults key) inner inner') :
      Leaves defaults key node (some (.table inner'))
  | dropped (hdefault : defaults.lookup key = some node) : Leaves defaults key node none
  | emptied {inner : List (String × Node)} (htable : node = .table inner)
      (hinner : Remains (entriesAt defaults key) inner []) : Leaves defaults key node none

/-! ## Another order -/

namespace Reorders

variable {entries entries' : List (String × Node)}

theorem refl (entries : List (String × Node)) : Reorders entries entries := .perm (.refl entries)

theorem keys (h : Reorders entries entries') :
    (entries.map Prod.fst).Perm (entries'.map Prod.fst) := by
  induction h with
  | perm h => exact h.map Prod.fst
  | inside before after key =>
    rw [List.map_append, List.map_append]
    exact .refl _
  | trans _ _ ih ih' => exact ih.trans ih'

theorem distinctKeys (h : Reorders entries entries') (hkeys : (table entries).DistinctKeys) :
    (table entries').DistinctKeys := by
  induction h with
  | perm h =>
    have hentries := distinctEntries_iff.1 hkeys.2
    exact ⟨(h.map Prod.fst).nodup hkeys.1,
      distinctEntries_iff.2 fun entry hentry => hentries entry (h.mem_iff.2 hentry)⟩
  | inside before after key h ih =>
    refine ⟨(Reorders.inside before after key h).keys.nodup hkeys.1, ?_⟩
    have hentries := distinctEntries_iff.1 hkeys.2
    simp only [List.forall_mem_append, List.forall_mem_cons] at hentries
    rw [distinctEntries_iff, List.forall_mem_append, List.forall_mem_cons]
    exact ⟨hentries.1, ih hentries.2.1, hentries.2.2⟩
  | trans _ _ ih ih' => exact ih' (ih hkeys)

/-- The same node, or tables with their entries in another order. -/
inductive Alike : Option Node → Option Node → Prop
  | same (node? : Option Node) : Alike node? node?
  | table {inner inner' : List (String × Node)} (h : Reorders inner inner') :
      Alike (some (.table inner)) (some (.table inner'))

theorem Alike.trans {a b c : Option Node} (h : Alike a b) (h' : Alike b c) : Alike a c := by
  cases h with
  | same => exact h'
  | table h =>
    cases h' with
    | same => exact .table h
    | table h' => exact .table (.trans h h')

/-- In another order, entries have the same under each key. -/
theorem lookup (h : Reorders entries entries') (hkeys : (entries.map Prod.fst).Nodup)
    (key : String) : Alike (entries.lookup key) (entries'.lookup key) := by
  induction h with
  | perm h =>
    rw [lookup_eq_of_perm h hkeys]
    exact .same _
  | inside before after key' h _ =>
    rw [List.lookup_append, List.lookup_append]
    cases before.lookup key with
    | some node => exact .same _
    | none =>
      rw [Option.none_or, Option.none_or, List.lookup_cons, List.lookup_cons]
      cases key == key' with
      | true => exact .table h
      | false => exact .same _
  | trans h _ ih ih' => exact (ih hkeys).trans (ih' (h.keys.nodup hkeys))

end Reorders

/-! ## What is left in order -/

namespace Omits

variable {defaults entries rest : List (String × Node)}

theorem refl (entries : List (String × Node)) : Omits defaults entries entries := by
  induction entries with
  | nil => exact .nil
  | cons entry entries ih => exact ih.keep entry

theorem keys (h : Omits defaults entries rest) :
    (rest.map Prod.fst).Sublist (entries.map Prod.fst) := by
  induction h with
  | nil => exact .slnil
  | keep entry _ ih => exact ih.cons_cons entry.1
  | keepTable _ _ _ ih => exact ih.cons_cons _
  | drop _ _ ih => exact ih.cons _
  | dropEmptied _ _ _ ih => exact ih.cons _

theorem not_mem_keys (h : Omits defaults entries rest) {key : String}
    (hkey : key ∉ entries.map Prod.fst) : key ∉ rest.map Prod.fst :=
  fun hmem => hkey (h.keys.subset hmem)

theorem isTable (h : Omits defaults entries rest) (htables : ∀ entry ∈ entries, entry.2.IsTable) :
    ∀ entry ∈ rest, entry.2.IsTable := by
  induction h with
  | nil => exact htables
  | keep entry _ ih =>
    rw [List.forall_mem_cons] at htables ⊢
    exact ⟨htables.1, ih htables.2⟩
  | keepTable _ _ _ ih =>
    rw [List.forall_mem_cons] at htables ⊢
    exact ⟨⟨_, rfl⟩, ih htables.2⟩
  | drop _ _ ih => exact ih (List.forall_mem_cons.1 htables).2
  | dropEmptied _ _ _ ih => exact ih (List.forall_mem_cons.1 htables).2

/-- What is left of entries that can be written can be written. -/
theorem writable {parts : Nat} (h : Omits defaults entries rest)
    (hwritable : Writable parts entries) : Writable parts rest := by
  induction h generalizing parts with
  | nil => exact .nil
  | keep entry h ih =>
    cases hwritable with
    | value hkey hfits hrest =>
      exact .value (h.not_mem_keys hkey) hfits (ih hrest)
    | table hkey hinner htables hrest =>
      exact .table (h.not_mem_keys hkey) hinner (h.isTable htables) (ih hrest)
  | keepTable _ h ihinner ih =>
    obtain ⟨parts, rfl, hkey, hinner, htables, hrest⟩ := hwritable.of_table
    exact .table (h.not_mem_keys hkey) (ihinner hinner) (h.isTable htables)
      (ih hrest)
  | drop _ _ ih => exact ih hwritable.tail
  | dropEmptied _ _ _ ih => exact ih hwritable.tail

/-- What is left in order has under each key what is left of the node there. -/
theorem leaves (h : Omits defaults entries rest) (hkeys : (entries.map Prod.fst).Nodup)
    {key : String} {node : Node} (hentry : (key, node) ∈ entries) :
    Leaves defaults key node (rest.lookup key) := by
  induction h with
  | nil => cases hentry
  | keep entry _ ih =>
    rcases eq_or_mem_of_nodup hkeys hentry with ⟨rfl, -⟩ | ⟨hne, hkeys, hentry⟩
    · rw [List.lookup_cons_self]
      exact .kept
    · rw [List.lookup_cons, hne]
      exact ih hkeys hentry
  | keepTable hinner _ _ ih =>
    rcases eq_or_mem_of_nodup hkeys hentry with ⟨heq, -⟩ | ⟨hne, hkeys, hentry⟩
    · obtain ⟨rfl, htable⟩ := Prod.mk.inj heq
      rw [List.lookup_cons_self]
      exact .keptTable htable ⟨_, hinner, .refl _⟩
    · rw [List.lookup_cons, hne]
      exact ih hkeys hentry
  | drop hdefault h ih =>
    rcases eq_or_mem_of_nodup hkeys hentry with ⟨heq, hkey⟩ | ⟨-, hkeys, hentry⟩
    · obtain ⟨rfl, rfl⟩ := Prod.mk.inj heq
      rw [lookup_of_not_mem (h.not_mem_keys hkey)]
      exact .dropped hdefault
    · exact ih hkeys hentry
  | dropEmptied hinner h _ ih =>
    rcases eq_or_mem_of_nodup hkeys hentry with ⟨heq, hkey⟩ | ⟨-, hkeys, hentry⟩
    · obtain ⟨rfl, htable⟩ := Prod.mk.inj heq
      rw [lookup_of_not_mem (h.not_mem_keys hkey)]
      exact .emptied htable ⟨_, hinner, .refl _⟩
    · exact ih hkeys hentry

/-- Without defaults and tables, nothing may be left out. -/
theorem eq_of_nodeEntries {values : List (String × Written)}
    (h : Omits [] (nodeEntries values) rest) : rest = nodeEntries values := by
  induction values generalizing rest with
  | nil =>
    cases h
    rfl
  | cons entry values ih =>
    obtain ⟨key, value⟩ := entry
    rw [nodeEntries, List.map_cons, ← nodeEntries] at h ⊢
    generalize hnode : value.node = node at h
    cases h with
    | keep _ h => rw [ih h]
    | keepTable _ _ => cases value <;> cases hnode
    | drop hdefault _ => cases hdefault
    | dropEmptied _ _ => cases value <;> cases hnode

end Omits

/-! ## What is left in some order -/

namespace Remains

variable {defaults entries rest : List (String × Node)}

theorem refl (entries : List (String × Node)) : Remains defaults entries entries :=
  ⟨entries, .refl entries, .refl entries⟩

/-- What is left has under each key what is left of the node there. -/
theorem leaves (h : Remains defaults entries rest) (hkeys : (entries.map Prod.fst).Nodup)
    {key : String} {node : Node} (hentry : (key, node) ∈ entries) :
    Leaves defaults key node (rest.lookup key) := by
  obtain ⟨inOrder, hinOrder, horder⟩ := h
  have hleaves := hinOrder.leaves hkeys hentry
  have halike := horder.lookup (hkeys.sublist hinOrder.keys) key
  generalize inOrder.lookup key = left at hleaves halike
  generalize rest.lookup key = found at halike ⊢
  cases halike with
  | same => exact hleaves
  | @table inner _ h =>
    generalize htable : some (table inner) = left at hleaves
    cases hleaves with
    | kept => exact .keptTable (Option.some.inj htable).symm ⟨_, .refl _, h⟩
    | keptTable hnode hinner =>
      obtain rfl := table.inj (Option.some.inj htable)
      obtain ⟨_, hinner, h'⟩ := hinner
      exact .keptTable hnode ⟨_, hinner, h'.trans h⟩
    | dropped _ => cases htable
    | emptied _ _ => cases htable

/-- Without defaults and tables, what is left are the entries, in some order. -/
theorem lookup_of_nodeEntries {values : List (String × Written)}
    (h : Remains [] (nodeEntries values) rest) (hkeys : (values.map Prod.fst).Nodup) :
    (rest.map Prod.fst).Nodup ∧ ∀ key, rest.lookup key = (nodeEntries values).lookup key := by
  obtain ⟨inOrder, hinOrder, horder⟩ := h
  obtain rfl := hinOrder.eq_of_nodeEntries
  rw [← Toml.map_fst_nodeEntries] at hkeys
  refine ⟨horder.keys.nodup hkeys, fun key => ?_⟩
  have halike := horder.lookup hkeys key
  generalize hvalue : (nodeEntries values).lookup key = value? at halike ⊢
  generalize rest.lookup key = found at halike ⊢
  cases halike with
  | same => rfl
  | @table inner _ _ =>
    obtain ⟨_, _, hsplit, -⟩ := List.lookup_eq_some_iff.1 hvalue
    have hmem : (key, table inner) ∈ nodeEntries values :=
      hsplit ▸ List.mem_append_right _ List.mem_cons_self
    obtain ⟨⟨_, value⟩, -, heq⟩ := List.mem_map.1 hmem
    cases value <;> cases heq

end Remains

end Node

end ConsentGate
