import ConsentGate.Node.Path

/-!
# Layers

Settings come in layers, the later ones over the earlier. A table goes over a table key by key;
anything else takes the place of what was there. A value may be laid at a path: what stands in the
way gives room to an empty table or list, and a list grows to reach a position.

Results:

* `Node.overlay_of_distinctKeys`: a node that is laid over nothing stays as it is.
* `Node.distinctKeys_layAll`: layers keep the keys of every table apart.
-/

namespace ConsentGate.Node

mutual

/-- A node with another one laid over it. -/
def overlay (old : Node) : Node → Node
  | .table new => .table (overlayEntries old.entries new)
  | new => new

/-- Entries with others laid over them. -/
def overlayEntries (old : List (String × Node)) : List (String × Node) → List (String × Node)
  | [] => old
  | (key, new) :: rest =>
    overlayEntries (upsert key (fun found => overlay (found.getD .nil) new) old) rest

end

/-- A list with the item at a position changed. A position past the end is reached by adding `nil`
at the end, a negative one past the start by adding `nil` at the front. -/
def updateItem (i : Int) (change : Node → Node) (items : List Node) : List Node :=
  if 0 ≤ i then
    (items ++ List.replicate (i.toNat + 1 - items.length) Node.nil).modify i.toNat change
  else
    let back := (-i).toNat
    if back ≤ items.length then items.modify (items.length - back) change
    else (List.replicate (back - items.length) Node.nil ++ items).modify 0 change

/-- A node with the place at a path changed. -/
def setAt : Path → (Node → Node) → Node → Node
  | [], change, node => change node
  | .key k :: path, change, node =>
    .table (upsert k (fun found => setAt path change (found.getD .nil)) node.entries)
  | .position i :: path, change, node => .list (updateItem i (setAt path change) node.items)

/-- A document with a value laid under a name: at the path that the name writes, or else under the
name itself. -/
def lay (document : Node) (name : String) (value : Node) : Node :=
  document.setAt ((Path.ofText? name).getD [.key name]) fun old => old.overlay value

/-- A document with values laid under names, one after the other. -/
def layAll (document : Node) (values : List (String × Node)) : Node :=
  values.foldl (fun d (name, value) => d.lay name value) document

/-! ## Layers over nothing -/

mutual

/-- In every table of a node, lists apart, a key stands once. -/
def DistinctKeys : Node → Prop
  | .table entries => (entries.map Prod.fst).Nodup ∧ DistinctEntries entries
  | _ => True

/-- So it is in every table of some entries. -/
def DistinctEntries : List (String × Node) → Prop
  | [] => True
  | (_, node) :: rest => node.DistinctKeys ∧ DistinctEntries rest

end

theorem distinctEntries_iff {entries : List (String × Node)} :
    DistinctEntries entries ↔ ∀ entry ∈ entries, entry.2.DistinctKeys := by
  induction entries with
  | nil => simp [DistinctEntries]
  | cons entry entries ih => simp [DistinctEntries, ih]

mutual

/-- A node that is laid over nothing stays as it is. -/
theorem overlay_of_distinctKeys {old : Node} (hold : old.entries = []) (node : Node)
    (h : node.DistinctKeys) : overlay old node = node := by
  match node with
  | .table entries =>
    rw [overlay, hold, overlayEntries_of_distinctEntries [] entries h.1 h.2]
    rfl
  | .nil | .boolean _ | .integer _ | .float _ | .text _ | .list _ => rfl

/-- Entries with new keys are added behind those that are there. -/
theorem overlayEntries_of_distinctEntries (old new : List (String × Node))
    (hkeys : (old.map Prod.fst ++ new.map Prod.fst).Nodup) (h : DistinctEntries new) :
    overlayEntries old new = old ++ new := by
  match new with
  | [] => rw [overlayEntries, List.append_nil]
  | (key, node) :: rest =>
    have hnew : key ∉ old.map Prod.fst := not_mem_of_nodup hkeys
    have hnode : overlay ((none : Option Node).getD .nil) node = node :=
      overlay_of_distinctKeys rfl node h.1
    have hrest := overlayEntries_of_distinctEntries (old ++ [(key, node)]) rest
      (by
        rw [List.map_append, List.append_assoc]
        exact hkeys) h.2
    rw [overlayEntries, upsert_of_not_mem _ hnew, hnode, hrest, List.append_assoc]
    rfl

end

/-! ## Layers keep keys apart -/

theorem DistinctKeys.entries {node : Node} (h : node.DistinctKeys) :
    (table node.entries).DistinctKeys := by
  cases node with
  | table entries => exact h
  | nil | boolean _ | integer _ | float _ | text _ | list _ => exact ⟨List.nodup_nil, trivial⟩

theorem DistinctKeys.get? {node child : Node} {key : String} (h : node.DistinctKeys)
    (hget : node.get? key = some child) : child.DistinctKeys := by
  obtain ⟨before, after, hentries, -⟩ := List.lookup_eq_some_iff.1 hget
  have hmem : (key, child) ∈ node.entries := by
    rw [hentries]
    exact List.mem_append_right _ List.mem_cons_self
  exact distinctEntries_iff.1 h.entries.2 (key, child) hmem

/-- A change of one entry keeps keys apart where it does so below the entry. -/
theorem distinctKeys_upsert {key : String} {change : Option Node → Node}
    {entries : List (String × Node)}
    (hchange : ∀ found, (∀ node ∈ found, node.DistinctKeys) → (change found).DistinctKeys)
    (h : (table entries).DistinctKeys) : (table (upsert key change entries)).DistinctKeys := by
  refine ⟨nodup_upsert h.1, ?_⟩
  have hentries := h.2
  clear h
  induction entries with
  | nil => exact ⟨hchange none nofun, trivial⟩
  | cons entry entries ih =>
    unfold upsert
    split
    · refine ⟨hchange _ fun node hnode => ?_, hentries.2⟩
      cases hnode
      exact hentries.1
    · exact ⟨hentries.1, ih hentries.2⟩

theorem distinctKeys_getD {found : Option Node} (h : ∀ node ∈ found, node.DistinctKeys) :
    (found.getD .nil).DistinctKeys := by
  cases found with
  | none => trivial
  | some node => exact h node rfl

mutual

theorem distinctKeys_overlay {old : Node} (hold : old.DistinctKeys) (new : Node) :
    (overlay old new).DistinctKeys := by
  match new with
  | .table entries =>
    rw [overlay]
    exact distinctKeys_overlayEntries hold.entries entries
  | .nil | .boolean _ | .integer _ | .float _ | .text _ | .list _ => trivial

theorem distinctKeys_overlayEntries {old : List (String × Node)}
    (hold : (table old).DistinctKeys) (new : List (String × Node)) :
    (table (overlayEntries old new)).DistinctKeys := by
  match new with
  | [] => exact hold
  | (key, node) :: rest =>
    have hnode (found : Option Node) (hfound : ∀ node ∈ found, node.DistinctKeys) :
        (overlay (found.getD .nil) node).DistinctKeys :=
      distinctKeys_overlay (distinctKeys_getD hfound) node
    rw [overlayEntries]
    exact distinctKeys_overlayEntries (distinctKeys_upsert hnode hold) rest

end

theorem distinctKeys_setAt {change : Node → Node}
    (hchange : ∀ node, node.DistinctKeys → (change node).DistinctKeys) (path : Path) {node : Node}
    (h : node.DistinctKeys) : (node.setAt path change).DistinctKeys := by
  induction path generalizing node with
  | nil => exact hchange node h
  | cons first path ih =>
    cases first with
    | key k =>
      rw [setAt]
      exact distinctKeys_upsert (fun found hfound => ih (distinctKeys_getD hfound)) h.entries
    | position i => trivial

theorem distinctKeys_layAll (values : List (String × Node)) {document : Node}
    (h : document.DistinctKeys) : (document.layAll values).DistinctKeys := by
  unfold layAll
  induction values generalizing document with
  | nil => exact h
  | cons value values ih =>
    apply ih
    exact distinctKeys_setAt (fun old hold => distinctKeys_overlay hold value.2) _ h

end ConsentGate.Node
