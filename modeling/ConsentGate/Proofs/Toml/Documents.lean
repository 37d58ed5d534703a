import ConsentGate.Proofs.Toml.Tables

/-!
# Documents that have a text

A table that has its values in front of its tables is written as sections: a header with the values
behind it, and then the sections of its tables, one below the other. So a document of such tables
is the document of some text.

Results:

* `Writable.lays`: placing the sections of a table one by one gives its entries.
* `Writable.exists_text`: a document of writable tables has a text.
-/

namespace ConsentGate.Toml

/-- Entries that sections can write: values, and tables of the same kind behind them. A part of a
header is needed for each table on the way to a value, and so many parts are needed at most. -/
inductive Writable : (parts : Nat) → (entries : List (String × Node)) → Prop
  | nil {parts : Nat} : Writable parts []
  | value {parts : Nat} {key : String} {value : Written} {rest : List (String × Node)}
      (hkey : key ∉ rest.map Prod.fst) (hfits : value.Fits) (hrest : Writable parts rest) :
      Writable parts ((key, value.node) :: rest)
  | table {parts : Nat} {key : String} {inner rest : List (String × Node)}
      (hkey : key ∉ rest.map Prod.fst) (hinner : Writable parts inner)
      (htables : ∀ entry ∈ rest, entry.2.IsTable) (hrest : Writable (parts + 1) rest) :
      Writable (parts + 1) ((key, .table inner) :: rest)

namespace Writable

variable {parts : Nat} {entries : List (String × Node)}

theorem distinctKeys (h : Writable parts entries) : (Node.table entries).DistinctKeys := by
  induction h with
  | nil => exact ⟨List.nodup_nil, trivial⟩
  | @value _ _ value _ hkey _ _ ih =>
    refine ⟨List.nodup_cons.2 ⟨hkey, ih.1⟩, ?_, ih.2⟩
    cases value <;> trivial
  | table hkey _ _ _ hinner ih => exact ⟨List.nodup_cons.2 ⟨hkey, ih.1⟩, hinner, ih.2⟩

theorem tail {entry : String × Node} (h : Writable parts (entry :: entries)) :
    Writable parts entries := by
  cases h with
  | value _ _ hrest => exact hrest
  | table _ _ _ hrest => exact hrest

/-- Writing a table takes a part of the header, its entries the others. -/
theorem of_table {key : String} {inner : List (String × Node)}
    (h : Writable parts ((key, .table inner) :: entries)) :
    ∃ below, parts = below + 1 ∧ key ∉ entries.map Prod.fst ∧ Writable below inner ∧
      (∀ entry ∈ entries, entry.2.IsTable) ∧ Writable (below + 1) entries := by
  generalize hnode : Node.table inner = node at h
  cases h with
  | @value _ _ value => cases value <;> cases hnode
  | table hkey hinner htables hrest =>
    obtain rfl := Node.table.inj hnode
    exact ⟨_, rfl, hkey, hinner, htables, hrest⟩

/-- Values may be written in front of anything that can be written. -/
theorem append {values : List (String × Written)} (hfits : ∀ entry ∈ values, entry.2.Fits)
    (hkeys : (values.map Prod.fst ++ entries.map Prod.fst).Nodup) (h : Writable parts entries) :
    Writable parts (nodeEntries values ++ entries) := by
  induction values with
  | nil => exact h
  | cons entry values ih =>
    rw [List.map_cons, List.cons_append, List.nodup_cons] at hkeys
    have hkey : entry.1 ∉ (nodeEntries values ++ entries).map Prod.fst := by
      rw [List.map_append, map_fst_nodeEntries]
      exact hkeys.1
    exact .value hkey (hfits entry List.mem_cons_self)
      (ih (fun e he => hfits e (List.mem_cons_of_mem _ he)) hkeys.2)

/-- Values can be written. -/
theorem values {values : List (String × Written)} (hkeys : (values.map Prod.fst).Nodup)
    (hfits : ∀ entry ∈ values, entry.2.Fits) : Writable parts (nodeEntries values) := by
  have hvalues : Writable parts (nodeEntries values ++ []) :=
    append hfits (by rw [List.map_nil, List.append_nil]; exact hkeys) .nil
  rw [List.append_nil] at hvalues
  exact hvalues

/-- Tables of values can be written. -/
theorem tables {tables : List (String × List (String × Written))} (h : DistinctTables tables)
    (hfits : ∀ table ∈ tables, ∀ entry ∈ table.2, entry.2.Fits) :
    Writable (parts + 1) (tableEntries tables) := by
  obtain ⟨hnames, hentries⟩ := h
  induction tables with
  | nil => exact .nil
  | cons table tables ih =>
    rw [List.forall_mem_cons] at hentries hfits
    rw [List.map_cons, List.nodup_cons] at hnames
    have hkey : table.1 ∉ (tableEntries tables).map Prod.fst := by
      rw [tableEntries, List.map_map]
      exact hnames.1
    refine .table hkey (values hentries.1 hfits.1) (fun entry hentry => ?_)
      (ih hfits.2 hnames.2 hentries.2)
    obtain ⟨other, -, rfl⟩ := List.mem_map.1 hentry
    exact ⟨_, rfl⟩

end Writable

/-- A section whose header has so many parts at most, and whose values fit. -/
structure Section.Within (parts : Nat) (s : Section) : Prop where
  header_ne : s.header ≠ []
  header_length : s.header.length ≤ parts
  fits : ∀ entry ∈ s.entries, entry.2.Fits

namespace Section.Within

variable {parts : Nat} {s : Section}

theorem below (h : s.Within parts) (first : String) : (s.below first).Within (parts + 1) where
  header_ne := List.cons_ne_nil _ _
  header_length := Nat.succ_le_succ h.header_length
  fits := h.fits

theorem wellFormed (h : s.Within parts) (hparts : parts ≤ maximalParts) : s.WellFormed where
  header_ne := h.header_ne
  header_length := Nat.le_trans h.header_length hparts
  fits := h.fits

end Section.Within

/-- Behind entries with other keys, the values of some entries and then sections for their tables
give the entries. -/
structure Lays (parts : Nat) (entries : List (String × Node)) (values : List (String × Written))
    (sections : List Section) (items : List (String × Item)) : Prop where
  keys : (values.map Prod.fst).Sublist (entries.map Prod.fst)
  fits : ∀ entry ∈ values, entry.2.Fits
  values_eq_nil : (∀ entry ∈ entries, entry.2.IsTable) → values = []
  within : ∀ s ∈ sections, s.Within parts
  place : ∀ before, (before.map Prod.fst ++ entries.map Prod.fst).Nodup →
    sections.foldlM Section.place (before ++ closedItems values) = some (before ++ items)
  nodes : nodes items = entries

namespace Lays

variable {parts : Nat} {key : String} {inner rest : List (String × Node)}
  {values values' : List (String × Written)} {sections sections' : List Section}
  {items items' : List (String × Item)}

theorem nil : Lays parts [] [] [] [] where
  keys := List.Sublist.slnil
  fits := nofun
  values_eq_nil _ := rfl
  within := nofun
  place _ _ := rfl
  nodes := rfl

theorem value {value : Written} (hfits : value.Fits)
    (h : Lays parts rest values sections items) :
    Lays parts ((key, value.node) :: rest) ((key, value) :: values) sections
      ((key, .closed value.node) :: items) where
  keys := h.keys.cons_cons key
  fits := List.forall_mem_cons.2 ⟨hfits, h.fits⟩
  values_eq_nil htables := by
    obtain ⟨_, heq⟩ := htables _ List.mem_cons_self
    cases value <;> cases heq
  within := h.within
  place before hnodup := by
    have hplace : sections.foldlM Section.place
        (before ++ [(key, .closed value.node)] ++ closedItems values) = _ :=
      h.place _ (nodup_snoc _ hnodup)
    rw [List.append_assoc, List.append_assoc] at hplace
    exact hplace
  nodes := by
    rw [Toml.nodes, h.nodes]
    rfl

theorem table (hinner : Lays parts inner values' sections' items')
    (hkeys : (inner.map Prod.fst).Nodup)
    (h : Lays (parts + 1) rest [] sections items) :
    Lays (parts + 1) ((key, .table inner) :: rest) []
      (⟨[key], values'⟩ :: (sections'.map (Section.below key) ++ sections))
      ((key, .table .written items') :: items) where
  keys := List.nil_sublist _
  fits := nofun
  values_eq_nil _ := rfl
  within := by
    intro s hs
    rcases List.mem_cons.1 hs with rfl | hs
    · exact ⟨List.cons_ne_nil _ _, Nat.succ_le_succ (Nat.zero_le parts), hinner.fits⟩
    · rcases List.mem_append.1 hs with hs | hs
      · obtain ⟨t, ht, rfl⟩ := List.mem_map.1 hs
        exact (hinner.within t ht).below key
      · exact h.within s hs
  place before hnodup := by
    have hnew : key ∉ before.map Prod.fst := not_mem_of_nodup hnodup
    have hheader : Section.place before ⟨[key], values'⟩ =
        some (before ++ [(key, .table .written (closedItems values'))]) :=
      addTable_of_not_mem hnew (hkeys.sublist hinner.keys)
    have hinside : sections'.foldlM Section.place (closedItems values') = some items' :=
      hinner.place [] hkeys
    have hbehind : sections.foldlM Section.place
        (before ++ [(key, .table .written items')] ++ closedItems []) = _ :=
      h.place _ (nodup_snoc _ hnodup)
    rw [closedItems, List.map_nil, List.append_nil, List.append_assoc] at hbehind
    have hbelow : (sections'.map (Section.below key)).foldlM Section.place
        (before ++ [(key, .table .written (closedItems values'))]) = _ :=
      Section.place_below_table (fun s hs => (hinner.within s hs).header_ne) hnew
    rw [closedItems, List.map_nil, List.append_nil, List.foldlM_cons, hheader, Option.bind_eq_bind,
      Option.bind_some, List.foldlM_append, hbelow, hinside, Option.map_some, Option.bind_eq_bind,
      Option.bind_some, hbehind]
    rfl
  nodes := by
    rw [Toml.nodes, h.nodes, Item.node, hinner.nodes]

end Lays

namespace Writable

variable {parts : Nat} {entries : List (String × Node)}

/-- Placing the sections of a table one by one gives its entries. -/
theorem lays (h : Writable parts entries) :
    ∃ values sections items, Lays parts entries values sections items := by
  induction h with
  | nil => exact ⟨[], [], [], .nil⟩
  | value _ hfits _ ih =>
    obtain ⟨_, _, _, hrest⟩ := ih
    exact ⟨_, _, _, hrest.value hfits⟩
  | table _ hinner htables _ ihinner ih =>
    obtain ⟨_, _, _, hlays⟩ := ihinner
    obtain ⟨_, _, _, hrest⟩ := ih
    obtain rfl := hrest.values_eq_nil htables
    exact ⟨_, _, _, hlays.table hinner.distinctKeys.1 hrest⟩

/-- A document of writable tables has a text. -/
theorem exists_text (h : Writable parts entries) (hparts : parts ≤ maximalParts)
    (htables : ∀ entry ∈ entries, entry.2.IsTable) :
    ∃ text, document? text = some (.table entries) := by
  obtain ⟨_, sections, items, hlays⟩ := h.lays
  obtain rfl := hlays.values_eq_nil htables
  have hplace : sections.foldlM Section.place [] = some items :=
    hlays.place [] h.distinctKeys.1
  refine ⟨Section.render sections, ?_⟩
  rw [Section.document?_render fun s hs => (hlays.within s hs).wellFormed hparts, hplace,
    Option.map_some, hlays.nodes]

end Writable

end ConsentGate.Toml
