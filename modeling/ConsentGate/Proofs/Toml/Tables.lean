import ConsentGate.Node.Layer
import ConsentGate.Proofs.Toml.Sections

/-!
# Tables of written sections

What the sections of a text build up to. A section whose header is new adds a table behind the
entries that are there. Sections with a common first part in their headers build the table under
that part as they would build a document of their own.

Results:

* `document?_render`: the document of written sections is what placing them one by one gives.
* `place_siblings`: sections with different one-part headers add one table each.
* `place_below_new`, `place_below_table`: a common first part may be taken off.
* `place_group`: sections that differ in the last of two parts build up a table of tables.
-/

namespace ConsentGate.Toml

/-! ## Sections in order -/

theorem section?_values (fields : List (Key × Node)) {rest : List Statement}
    (h : section? rest = ([], rest)) :
    (section? (fields.map (fun field => .value field.1 field.2) ++ rest)) = (fields, rest) := by
  induction fields with
  | nil => exact h
  | cons field fields ih => rw [List.map_cons, List.cons_append, section?, ih]

namespace Section

/-- The root table with a section added. -/
def place (root : List (String × Item)) (s : Section) : Option (List (String × Item)) :=
  addTable (.ofHeader s.header) s.fields root

theorem addSections_statements (sections : List Section) (root : List (String × Item)) :
    addSections (sections.flatMap statements) root = sections.foldlM place root := by
  induction sections generalizing root with
  | nil => rw [List.flatMap_nil, addSections, List.foldlM_nil]; rfl
  | cons s sections ih =>
    have hrest : section? (sections.flatMap statements) = ([], sections.flatMap statements) := by
      cases sections <;> rfl
    have hsections : addSections (sections.flatMap statements) =
        fun root => sections.foldlM place root := funext ih
    have hvalues := section?_values s.fields hrest
    rw [List.flatMap_cons, statements, List.cons_append, addSections, hvalues, hsections]
    rfl

/-- The document of written sections is what placing them one by one gives. -/
theorem document?_render {sections : List Section} (h : ∀ s ∈ sections, s.WellFormed) :
    document? (render sections) =
      (sections.foldlM place []).map fun root => .table (nodes root) := by
  have hmark : dropMark (render sections).toList = (render sections).toList := by
    rw [render, String.toList_ofList]
    rcases sections with _ | ⟨_, _ | _⟩ <;> rfl
  rw [document?, hmark, tokens?_render fun s hs => (h s hs).header_ne]
  simp only [Option.bind_eq_bind, Option.bind_some, statements?_tokens h, addSections_statements]
  cases sections.foldlM place [] <;> rfl

end Section

/-! ## New tables -/

/-- Written values as the items of a table. -/
def closedItems (entries : List (String × Written)) : List (String × Item) :=
  entries.map fun entry => (entry.1, .closed entry.2.node)

/-- Tables of written values as the items of a table. -/
def tableItems (tables : List (String × List (String × Written))) : List (String × Item) :=
  tables.map fun table => (table.1, .table .written (closedItems table.2))

/-- Tables with different names, and different names in each. -/
structure DistinctTables (tables : List (String × List (String × Written))) : Prop where
  names : (tables.map Prod.fst).Nodup
  entries : ∀ table ∈ tables, (table.2.map Prod.fst).Nodup

/-- An item may be added behind those that are there, if its key and the keys to come are new. -/
theorem nodup_snoc {before : List (String × Item)} {key : String} (item : Item)
    {keys : List String} (h : (before.map Prod.fst ++ key :: keys).Nodup) :
    ((before ++ [(key, item)]).map Prod.fst ++ keys).Nodup := by
  rw [List.map_append, List.append_assoc]
  exact h

theorem assignAll_entries {entries : List (String × Written)} {before : List (String × Item)}
    (h : (before.map Prod.fst ++ entries.map Prod.fst).Nodup) :
    assignAll (entries.map fun entry => (⟨[], entry.1⟩, entry.2.node)) before =
      some (before ++ closedItems entries) := by
  induction entries generalizing before with
  | nil => rw [List.map_nil, assignAll, closedItems, List.map_nil, List.append_nil]
  | cons entry entries ih =>
    have hnew : entry.1 ∉ before.map Prod.fst := not_mem_of_nodup h
    have hassign : assign ⟨[], entry.1⟩ entry.2.node before =
        some (before ++ [(entry.1, .closed entry.2.node)]) := by
      rw [assign, descend, if_pos (.inl rfl), insertNew, lookup_of_not_mem hnew]
      rfl
    have hrest := ih (nodup_snoc (.closed entry.2.node) h)
    rw [List.map_cons, assignAll, hassign, Option.bind_some, hrest, List.append_assoc]
    rfl

theorem addTable_eq_descend (key : Key) (fields : List (Key × Node)) (origin : Origin)
    (root : List (String × Item)) :
    addTable key fields root =
      descend false (fun _ => addTable ⟨[], key.last⟩ fields) key.path origin root := by
  obtain ⟨path, last⟩ := key
  cases path <;> rfl

/-- A table is added behind the entries that are there. -/
theorem addTable_of_not_mem {last : String} {entries : List (String × Written)}
    {before : List (String × Item)} (h : last ∉ before.map Prod.fst)
    (hentries : (entries.map Prod.fst).Nodup) :
    addTable ⟨[], last⟩ (entries.map fun entry => (⟨[], entry.1⟩, entry.2.node)) before =
      some (before ++ [(last, .table .written (closedItems entries))]) := by
  have hassign : assignAll (entries.map fun entry => (⟨[], entry.1⟩, entry.2.node)) [] = _ :=
    assignAll_entries hentries
  rw [addTable, descend]
  simp only [lookup_of_not_mem h, hassign, Option.bind_eq_bind, Option.bind_some,
    upsert_of_not_mem _ h]
  rfl

/-- A common first part that is new names a table on the way. -/
theorem addTable_below_new {first last : String} {path : List String} {fields : List (Key × Node)}
    {before : List (String × Item)} (h : first ∉ before.map Prod.fst) :
    addTable ⟨first :: path, last⟩ fields before =
      (addTable ⟨path, last⟩ fields []).map fun inner =>
        before ++ [(first, .table .passed inner)] := by
  rw [addTable_eq_descend _ fields .written before, addTable_eq_descend _ fields .passed [],
    descend]
  simp only [lookup_of_not_mem h, upsert_of_not_mem _ h, Bool.false_eq_true, if_false]
  rw [Option.map_eq_bind]
  rfl

/-- A common first part that is there leads into its table. -/
theorem addTable_below_table {first last : String} {path : List String}
    {fields : List (Key × Node)} {before inner : List (String × Item)} {origin : Origin}
    (h : first ∉ before.map Prod.fst) :
    addTable ⟨first :: path, last⟩ fields (before ++ [(first, .table origin inner)]) =
      (addTable ⟨path, last⟩ fields inner).map fun inner =>
        before ++ [(first, .table origin inner)] := by
  have hlookup : (before ++ [(first, Item.table origin inner)]).lookup first =
      some (.table origin inner) := by
    rw [List.lookup_append, lookup_of_not_mem h, Option.none_or, List.lookup_cons_self]
  rw [addTable_eq_descend _ fields .written (before ++ _),
    addTable_eq_descend _ fields origin inner, descend]
  simp only [hlookup, Bool.false_eq_true, false_and, if_false, upsert_append _ h]
  rw [Option.map_eq_bind]
  rfl

namespace Section

/-- A section with one more part in front of its header. -/
def below (first : String) (s : Section) : Section := { s with header := first :: s.header }

theorem ofHeader_below {first : String} {header : List String} (h : header ≠ []) :
    Key.ofHeader (first :: header) =
      ⟨first :: (Key.ofHeader header).path, (Key.ofHeader header).last⟩ := by
  obtain ⟨key, keys, rfl⟩ := List.exists_cons_of_ne_nil h
  rfl

/-- A table as a section of its own. -/
def ofTable (table : String × List (String × Written)) : Section := ⟨[table.1], table.2⟩

/-- Sections with different one-part headers add one table each. -/
theorem place_siblings {tables : List (String × List (String × Written))}
    {before : List (String × Item)} (h : (before.map Prod.fst ++ tables.map Prod.fst).Nodup)
    (hentries : ∀ table ∈ tables, (table.2.map Prod.fst).Nodup) :
    (tables.map ofTable).foldlM place before =
      some (before ++ tableItems tables) := by
  induction tables generalizing before with
  | nil =>
    rw [List.map_nil, List.foldlM_nil, tableItems, List.map_nil, List.append_nil]
    rfl
  | cons table tables ih =>
    have hnew : table.1 ∉ before.map Prod.fst := not_mem_of_nodup h
    have hplace : place before (ofTable table) =
        some (before ++ [(table.1, .table .written (closedItems table.2))]) :=
      addTable_of_not_mem hnew (hentries table List.mem_cons_self)
    have hrest := ih (nodup_snoc (.table .written (closedItems table.2)) h) fun t ht =>
      hentries t (List.mem_cons_of_mem _ ht)
    rw [List.map_cons, List.foldlM_cons, hplace]
    simp only [Option.bind_eq_bind, Option.bind_some, hrest, List.append_assoc]
    rfl

/-- Sections below a table build up the table as they would build up a document. -/
theorem place_below_table {first : String} {sections : List Section}
    (hne : ∀ s ∈ sections, s.header ≠ []) {before inner : List (String × Item)} {origin : Origin}
    (h : first ∉ before.map Prod.fst) :
    (sections.map (below first)).foldlM place (before ++ [(first, .table origin inner)]) =
      (sections.foldlM place inner).map fun inner => before ++ [(first, .table origin inner)] := by
  induction sections generalizing inner with
  | nil => rfl
  | cons s sections ih =>
    have hplace : place (before ++ [(first, .table origin inner)]) (below first s) =
        (place inner s).map fun inner => before ++ [(first, .table origin inner)] := by
      rw [place, below, ofHeader_below (hne s List.mem_cons_self), addTable_below_table h]
      rfl
    rw [List.map_cons, List.foldlM_cons, List.foldlM_cons, hplace]
    cases place inner s with
    | none => rfl
    | some inner => exact ih fun t ht => hne t (List.mem_cons_of_mem _ ht)

/-- Sections below a part that is new build up a table there. -/
theorem place_below_new {first : String} {s : Section} {sections : List Section}
    (hne : ∀ t ∈ s :: sections, t.header ≠ []) {before : List (String × Item)}
    (h : first ∉ before.map Prod.fst) :
    ((s :: sections).map (below first)).foldlM place before =
      ((s :: sections).foldlM place []).map fun inner =>
        before ++ [(first, .table .passed inner)] := by
  have hplace : place before (below first s) =
      (place [] s).map fun inner => before ++ [(first, .table .passed inner)] := by
    rw [place, below, ofHeader_below (hne s List.mem_cons_self), addTable_below_new h]
    rfl
  rw [List.map_cons, List.foldlM_cons, List.foldlM_cons, hplace]
  cases place [] s with
  | none => rfl
  | some inner => exact place_below_table (fun t ht => hne t (List.mem_cons_of_mem _ ht)) h

/-- Different tables below a part that is new are the tables there. -/
theorem place_group {first : String} {tables : List (String × List (String × Written))}
    {before : List (String × Item)} (h : first ∉ before.map Prod.fst) (hne : tables ≠ [])
    (hdistinct : DistinctTables tables) :
    ((tables.map ofTable).map (below first)).foldlM place before =
      some (before ++ [(first, .table .passed (tableItems tables))]) := by
  obtain ⟨table, tables, rfl⟩ := List.exists_cons_of_ne_nil hne
  have hheader : ∀ s ∈ (table :: tables).map ofTable, s.header ≠ [] := by
    rintro s hs
    obtain ⟨t, -, rfl⟩ := List.mem_map.1 hs
    exact List.cons_ne_nil _ _
  have hinner : ((table :: tables).map ofTable).foldlM place [] = some ([] ++ _) :=
    place_siblings hdistinct.names hdistinct.entries
  rw [List.map_cons] at hinner hheader ⊢
  rw [place_below_new hheader h, hinner, List.nil_append]
  rfl

end Section

/-! ## Nodes -/

/-- Written values as the entries of a node. -/
def nodeEntries (entries : List (String × Written)) : List (String × Node) :=
  entries.map fun entry => (entry.1, entry.2.node)

/-- Tables of written values as the entries of a node. -/
def tableEntries (tables : List (String × List (String × Written))) : List (String × Node) :=
  tables.map fun table => (table.1, .table (nodeEntries table.2))

theorem map_fst_nodeEntries (entries : List (String × Written)) :
    (nodeEntries entries).map Prod.fst = entries.map Prod.fst := by
  rw [nodeEntries, List.map_map]
  rfl

theorem distinctEntries_nodeEntries (entries : List (String × Written)) :
    Node.DistinctEntries (nodeEntries entries) := by
  refine Node.distinctEntries_iff.2 fun entry hentry => ?_
  obtain ⟨⟨_, value⟩, -, rfl⟩ := List.mem_map.1 hentry
  cases value <;> trivial

theorem distinctKeys_table {entries : List (String × Written)}
    (h : (entries.map Prod.fst).Nodup) : (Node.table (nodeEntries entries)).DistinctKeys :=
  ⟨(map_fst_nodeEntries entries).symm ▸ h, distinctEntries_nodeEntries entries⟩

theorem DistinctTables.distinctKeys {tables : List (String × List (String × Written))}
    (h : DistinctTables tables) : (Node.table (tableEntries tables)).DistinctKeys := by
  refine ⟨?_, Node.distinctEntries_iff.2 fun entry hentry => ?_⟩
  · rw [tableEntries, List.map_map]
    exact h.names
  · obtain ⟨table, htable, rfl⟩ := List.mem_map.1 hentry
    exact distinctKeys_table (h.entries table htable)

theorem nodes_append (xs ys : List (String × Item)) : nodes (xs ++ ys) = nodes xs ++ nodes ys := by
  induction xs with
  | nil => rfl
  | cons x xs ih => rw [List.cons_append, nodes, nodes, ih, List.cons_append]

theorem nodes_closedItems (entries : List (String × Written)) :
    nodes (closedItems entries) = nodeEntries entries := by
  induction entries with
  | nil => rfl
  | cons entry entries ih =>
    rw [closedItems, List.map_cons, nodes, ← closedItems, ih]
    rfl

theorem nodes_tableItems (tables : List (String × List (String × Written))) :
    nodes (tableItems tables) = tableEntries tables := by
  induction tables with
  | nil => rfl
  | cons table tables ih =>
    rw [tableItems, List.map_cons, nodes, ← tableItems, ih, Item.node, nodes_closedItems]
    rfl

end ConsentGate.Toml
