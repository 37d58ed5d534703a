import ConsentGate.CommandLine.Run
import ConsentGate.Proofs.Settings.Overrides
import ConsentGate.Proofs.Settings.RoundTrip

/-!
# Merging settings again

Once an environment is merged into a settings text, the settings that come out can stand in place of
the text: merging the same environment into their canonical text gives them again. The two documents
differ in shape, since a record may be written as a list, a word as a table with one key, and what
is left out is written with its default. A variable may lead to a field, above one, below one or
past all of them. So the argument does not go by settings, as for variables that each set one, but
down the tree: wherever some texts are laid, they leave the node alone, or determine it whatever it
was, or make a table of it, and what is found under a key of this table depends on the texts for the
key and on what was under it.

Results:

* `Node.effect`: what laying texts does to a node.
* `Node.Stable.leaf`, `Node.Stable.word`, `Node.stable_vendorMap`, `Node.ReadsRecord.stable`: what
  was read below some texts is read below them again when it is written in place of the node.
* `Policy.stable_document`: so it is for a whole settings document.
* `Settings.load_again`: what is loaded in an environment is loaded in it again.
-/

namespace ConsentGate

namespace Node

/-- Texts for places below some keys, in the order in which they are laid. -/
abbrev Texts := List (List String × String)

/-- A node, if there is one, with texts laid at the places below some keys. -/
def layTexts (texts : Texts) (node? : Option Node) : Option Node :=
  texts.foldl (fun node? entry => some ((node?.getD .nil).layText entry.1 entry.2)) node?

/-- The texts for places below a key. -/
def textsBelow (key : String) : Texts → Texts
  | [] => []
  | ([], _) :: texts => textsBelow key texts
  | (first :: keys, value) :: texts =>
    if first = key then (keys, value) :: textsBelow key texts else textsBelow key texts

theorem layTexts_cons (keys : List String) (text : String) (texts : Texts) (node? : Option Node) :
    layTexts ((keys, text) :: texts) node? =
      layTexts texts (some ((node?.getD .nil).layText keys text)) := rfl

theorem distinctKeys_layTexts (texts : Texts) {node? : Option Node}
    (h : ∀ node ∈ node?, node.DistinctKeys) :
    ∀ node ∈ layTexts texts node?, node.DistinctKeys := by
  induction texts generalizing node? with
  | nil => exact h
  | cons entry texts ih =>
    apply ih
    rintro node ⟨⟩
    exact distinctKeys_layText entry.1 entry.2 (distinctKeys_getD h)

theorem distinctKeys_child {node? : Option Node} (h : ∀ node ∈ node?, node.DistinctKeys)
    (key : String) : ∀ child ∈ node?.bind fun node => node.get? key, child.DistinctKeys := by
  intro child hchild
  obtain ⟨node, hnode, hget⟩ := Option.bind_eq_some_iff.1 hchild
  exact (h node hnode).get? hget

/-! ## What laying texts does -/

/-- What is found under a key after a text is laid below some keys. -/
theorem get?_layText (key first : String) (keys : List String) (text : String)
    (node? : Option Node) :
    ((node?.getD .nil).layText (first :: keys) text).get? key =
      layTexts (textsBelow key [(first :: keys, text)]) (node?.bind fun node => node.get? key) := by
  rw [layText_cons, get?, entries, lookup_upsert, lookup_entries_getD, lookup_entries_getD,
    textsBelow]
  by_cases hkey : first = key
  · subst hkey
    rw [if_pos rfl, if_pos rfl]
    rfl
  · rw [if_neg fun heq => hkey heq.symm, if_neg hkey]
    rfl

theorem textsBelow_cons (key : String) (entry : List String × String) (texts : Texts) :
    textsBelow key (entry :: texts) = textsBelow key [entry] ++ textsBelow key texts := by
  obtain ⟨_ | ⟨first, keys⟩, text⟩ := entry
  · rfl
  · rw [textsBelow, textsBelow, textsBelow]
    split <;> rfl

theorem layTexts_append (texts texts' : Texts) (node? : Option Node) :
    layTexts (texts ++ texts') node? = layTexts texts' (layTexts texts node?) :=
  List.foldl_append

/-- Texts for places below the node make a table of it, whatever it was. What is found under a key
of the table depends on the texts below the key and on what was under the key. -/
structure Descends (texts : Texts) : Prop where
  somewhere : ∃ key, textsBelow key texts ≠ []
  table : ∀ node? : Option Node, ∃ entries, layTexts texts node? = some (.table entries) ∧
    ∀ key, entries.lookup key =
      layTexts (textsBelow key texts) (node?.bind fun node => node.get? key)

/-- What laying texts does to a node. -/
inductive Effect (texts : Texts) : Prop
  /-- There are no texts. -/
  | keeps (none : texts = [])
  /-- One of them takes the place of the node, so that the node does not matter. -/
  | replaces (node : Node) (all : ∀ node? : Option Node, layTexts texts node? = some node)
  /-- All of them are for places below the node. -/
  | descends (tables : Descends texts)

/-- Each text is laid at the node itself, and replaces it, or below it. -/
theorem effect (texts : Texts) : Effect texts := by
  induction texts with
  | nil => exact .keeps rfl
  | cons entry texts ih =>
    obtain ⟨keys, text⟩ := entry
    have hsomewhere (first : String) (keys : List String) :
        ∃ key, textsBelow key ((first :: keys, text) :: texts) ≠ [] := by
      refine ⟨first, ?_⟩
      rw [textsBelow, if_pos rfl]
      exact List.cons_ne_nil _ _
    cases ih with
    | replaces node all => exact .replaces node fun node? => all _
    | keeps none =>
      subst none
      cases keys with
      | nil => exact .replaces (.text text) fun _ => rfl
      | cons first keys =>
        refine .descends ⟨hsomewhere first keys, fun node? => ⟨_, rfl, fun key => ?_⟩⟩
        exact get?_layText key first keys text node?
    | descends tables =>
      cases keys with
      | nil =>
        obtain ⟨entries, hentries, -⟩ := tables.table (some (.text text))
        exact .replaces _ fun _ => hentries
      | cons first keys =>
        refine .descends ⟨hsomewhere first keys, fun node? => ?_⟩
        obtain ⟨entries, hentries, hlookup⟩ :=
          tables.table (some ((node?.getD .nil).layText (first :: keys) text))
        refine ⟨entries, hentries, fun key => ?_⟩
        rw [hlookup, Option.bind_some, get?_layText, textsBelow_cons key _ texts, layTexts_append]

/-- There is a node afterwards if there was one, or a text was laid. -/
theorem layTexts_eq_none_iff {texts : Texts} {node? : Option Node} :
    layTexts texts node? = none ↔ texts = [] ∧ node? = none := by
  constructor
  · intro h
    cases effect texts with
    | keeps none =>
      subst none
      exact ⟨rfl, h⟩
    | replaces node all =>
      rw [all] at h
      cases h
    | descends tables =>
      obtain ⟨entries, hentries, -⟩ := tables.table node?
      rw [hentries] at h
      cases h
  · rintro ⟨rfl, rfl⟩
    rfl

/-! ## Stable readers -/

section Readers

variable {α β : Type} {read? : Node → Option α} {default : α} {write : α → Node}
  {part? : Node → Option β} {partDefault : β} {partWrite : β → Node}

/-- What was read below some texts is read below them again when it is written in place of the
node. -/
def Stable (read? : Node → Option α) (default : α) (write : α → Node) : Prop :=
  ∀ (texts : Texts) (node? : Option Node), (∀ node ∈ node?, node.DistinctKeys) →
    ∀ a, field (layTexts texts node?) read? default = some a →
      field (layTexts texts (some (write a))) read? default = some a

/-- Texts that make no table of a node are no obstacle to a reader that reads back. -/
theorem Stable.of_descends (hback : ∀ a, read? (write a) = some a)
    (h : ∀ texts, Descends texts → ∀ node? : Option Node, (∀ node ∈ node?, node.DistinctKeys) →
      ∀ a, field (layTexts texts node?) read? default = some a →
        field (layTexts texts (some (write a))) read? default = some a) :
    Stable read? default write := by
  intro texts node? hdistinct a ha
  cases effect texts with
  | keeps none =>
    subst none
    exact hback a
  | replaces node all => rwa [all] at ha ⊢
  | descends tables => exact h texts tables node? hdistinct a ha

/-- A reader that reads no table is stable. -/
theorem Stable.leaf (hback : ∀ a, read? (write a) = some a)
    (htable : ∀ entries, read? (.table entries) = none) : Stable read? default write := by
  refine .of_descends hback fun texts tables node? _ a ha => ?_
  obtain ⟨entries, hentries, -⟩ := tables.table node?
  rw [hentries, field, Option.elim_some, htable] at ha
  cases ha

/-- A table with distinct keys in which something is found under one key only has one entry. -/
theorem exists_eq_singleton {entries : List (String × Node)} {key : String}
    (hkeys : (entries.map Prod.fst).Nodup) (hkey : entries.lookup key ≠ none)
    (hothers : ∀ k, k ≠ key → entries.lookup k = none) : ∃ node, entries = [(key, node)] := by
  have hall (entry : String × Node) (hentry : entry ∈ entries) : entry.1 = key := by
    by_contra hne
    have hfound := lookup_of_mem hkeys hentry
    rw [hothers entry.1 hne] at hfound
    cases hfound
  match entries with
  | [] => exact absurd rfl hkey
  | [(k, node)] =>
    obtain rfl : k = key := hall (k, node) List.mem_cons_self
    exact ⟨node, rfl⟩
  | first :: second :: rest =>
    have hsame : first.1 = second.1 := (hall first List.mem_cons_self).trans
      (hall second (List.mem_cons_of_mem _ List.mem_cons_self)).symm
    exact absurd (hsame ▸ List.mem_cons_self) (List.nodup_cons.1 hkeys).1

/-- So is a reader of words, which also reads a table with one key as this key: all texts that leave
such a table are laid below the key. -/
theorem Stable.word {ofWord? : String → Option α} {word : α → String}
    (hback : ∀ a, ofWord? (word a) = some a) :
    Stable (fun node => node.variant?.bind ofWord?) default (fun a => .text (word a)) := by
  refine .of_descends hback fun texts tables node? hdistinct a ha => ?_
  have hwritten (node : Node) (hnode : node ∈ some (text (word a))) : node.DistinctKeys := by
    cases hnode
    trivial
  obtain ⟨entries, hentries, hlookup⟩ := tables.table node?
  obtain ⟨entries', hentries', hlookup'⟩ := tables.table (some (text (word a)))
  have hkeys' := (distinctKeys_layTexts texts hwritten _ hentries').1
  rw [hentries, field, Option.elim_some] at ha
  obtain ⟨key, hvariant, hword⟩ := Option.bind_eq_some_iff.1 ha
  obtain ⟨old, rfl⟩ : ∃ old, entries = [(key, old)] := by
    unfold variant? at hvariant
    split at hvariant
    · rename_i heq
      cases heq
    · rename_i heq
      cases heq
      cases hvariant
      exact ⟨_, rfl⟩
    · cases hvariant
  have hbelow (k : String) (hk : k ≠ key) : textsBelow k texts = [] := by
    have hnone := hlookup k
    rw [List.lookup_cons, beq_false_of_ne hk] at hnone
    exact (layTexts_eq_none_iff.1 hnone.symm).1
  obtain ⟨node, rfl⟩ : ∃ node, entries' = [(key, node)] := by
    refine exists_eq_singleton hkeys' ?_ fun k hk => ?_
    · obtain ⟨k, hk⟩ := tables.somewhere
      obtain rfl : k = key := by_contra fun hne => hk (hbelow k hne)
      rw [hlookup']
      exact fun hnone => hk (layTexts_eq_none_iff.1 hnone).1
    · rw [hlookup', hbelow k hk]
      rfl
  rw [hentries']
  exact hword

/-- The table of a map to vendor ids. -/
def vendorTable (m : OrderedMap String VendorId) : Node :=
  .table (m.entries.map fun entry => (entry.1, .integer entry.2.toNat))

theorem get?_vendorTable (m : OrderedMap String VendorId) (code : String) :
    (vendorTable m).get? code = (m.find? code).map fun v => .integer v.toNat := by
  rw [vendorTable, get?, entries, lookup_map (fun v : VendorId => Node.integer v.toNat),
    OrderedMap.find?, OrderedMap.lookup_eq_lookup]

theorem distinctKeys_vendorTable (m : OrderedMap String VendorId) :
    (vendorTable m).DistinctKeys := by
  refine ⟨?_, distinctEntries_iff.2 fun entry hentry => ?_⟩
  · rw [List.map_map]
    exact m.nodup_keys
  · obtain ⟨_, -, rfl⟩ := List.mem_map.1 hentry
    trivial

/-- So is the reader of a map to vendor ids, which reads each key apart. -/
theorem stable_vendorMap : Stable vendorMap? ∅ vendorTable := by
  have hvendor : Stable vendor? 0 fun v => .integer v.toNat :=
    .leaf vendor?_integer fun _ => rfl
  refine .of_descends vendorMap?_table fun texts tables node? hdistinct m hm => ?_
  have hwritten (node : Node) (hnode : node ∈ some (vendorTable m)) : node.DistinctKeys := by
    cases hnode
    exact distinctKeys_vendorTable m
  obtain ⟨entries, hentries, hlookup⟩ := tables.table node?
  obtain ⟨entries', hentries', hlookup'⟩ := tables.table (some (vendorTable m))
  have hkeys := (distinctKeys_layTexts texts hdistinct _ hentries).1
  have hkeys' := (distinctKeys_layTexts texts hwritten _ hentries').1
  rw [hentries, field, Option.elim_some, vendorMap?_table_iff hkeys] at hm
  rw [hentries', field, Option.elim_some, vendorMap?_table_iff hkeys']
  intro code
  have hcode := hm code
  rw [hlookup] at hcode
  rw [hlookup', Option.bind_some, get?_vendorTable]
  cases hfind : m.find? code with
  | none =>
    rw [hfind, Option.map_none, Option.map_eq_none_iff, layTexts_eq_none_iff] at hcode
    rw [hcode.1]
    rfl
  | some v =>
    rw [hfind, Option.map_some, Option.map_eq_some_iff] at hcode
    obtain ⟨old, hold, hv⟩ := hcode
    have hread := hvendor (textsBelow code texts) _ (distinctKeys_child hdistinct code) v
      (by rw [hold]; exact hv)
    rw [Option.map_some, Option.map_some]
    cases hnew : layTexts (textsBelow code texts) (some (.integer v.toNat)) with
    | none => cases (layTexts_eq_none_iff.1 hnew).2
    | some new =>
      rw [hnew] at hread
      rw [Option.map_some]
      exact congrArg some hread

/-- A field of a record is read again below the texts for it when the record is written. -/
def RecordField.Stays (f : RecordField α) (write : α → Node) : Prop :=
  ∀ (texts : Texts) (node? : Option Node), (∀ node ∈ node?, node.DistinctKeys) →
    ∀ a, f.Holds (layTexts texts node?) a → f.Holds (layTexts texts ((write a).get? f.key)) a

theorem RecordField.Stays.of {key : String} {get : α → β}
    (hpart : Stable part? partDefault partWrite)
    (hwrite : ∀ a, (write a).get? key = some (partWrite (get a))) :
    (RecordField.of key part? partDefault get).Stays write := by
  intro texts node? hdistinct a ha
  have hkey : (RecordField.of key part? partDefault get).key = key := rfl
  rw [hkey, hwrite]
  exact hpart texts node? hdistinct (get a) ha

/-- A reader of records is stable if each of its fields is. -/
theorem ReadsRecord.stable {fields : List (RecordField α)} (h : ReadsRecord read? default fields)
    (hback : ∀ a, read? (write a) = some a) (hfields : ∀ f ∈ fields, f.Stays write) :
    Stable read? default write := by
  refine .of_descends hback fun texts tables node? hdistinct a ha => ?_
  obtain ⟨entries, hentries, hlookup⟩ := tables.table node?
  obtain ⟨entries', hentries', hlookup'⟩ := tables.table (some (write a))
  rw [hentries] at ha
  rw [hentries']
  refine (h.reads entries' a).2 fun f hf => ?_
  have hfound := (h.reads entries a).1 ha f hf
  rw [hlookup] at hfound
  rw [hlookup', Option.bind_some]
  exact hfields f hf _ _ (distinctKeys_child hdistinct f.key) a hfound

end Readers

end Node

/-! ## Settings documents -/

open Node (RecordField Stable)

theorem Node.stable_bool : Stable Node.bool? true .boolean := .leaf (fun _ => rfl) fun _ => rfl

theorem Node.stable_textSet : Stable Node.textSet? ∅ fun s => .list (s.toList.map .text) :=
  .leaf textSet?_texts fun _ => rfl

theorem PurposePolicy.stable : Stable ofNode? {} node := by
  refine readsRecord.stable ofNode?_node ?_
  simp only [List.forall_mem_cons]
  exact ⟨.of (.word Strictness.ofKey?_key) fun _ => rfl,
    .of Node.stable_bool fun _ => rfl, .of Node.stable_textSet fun _ => rfl, nofun⟩

theorem FeaturePolicy.stable : Stable ofNode? {} node := by
  refine readsRecord.stable ofNode?_node ?_
  simp only [List.forall_mem_cons]
  exact ⟨.of Node.stable_bool fun _ => rfl, .of Node.stable_textSet fun _ => rfl, nofun⟩

/-- The table of the purpose policies. -/
def purposeTable (purposes : PerPurpose PurposePolicy) : Node :=
  .table (Purpose.all.map fun p => (p.key, (purposes.get p).node))

theorem stable_purposes : Stable purposePolicies? (.ofFn fun _ => {}) purposeTable := by
  refine readsRecord_purposes.stable (fun purposes => Policy.purposePolicies?_node { purposes }) ?_
  rw [List.forall_mem_map]
  exact fun p _ => .of PurposePolicy.stable fun purposes => by cases p <;> rfl

/-- The table of the policy for special feature 1. -/
def locationTable (location : FeaturePolicy) : Node := .table [("sf1", location.node)]

theorem stable_location : Stable locationPolicy? {} locationTable := by
  refine readsRecord_location.stable (fun location => Policy.locationPolicy?_node { location }) ?_
  simp only [List.forall_mem_cons]
  exact ⟨.of FeaturePolicy.stable fun _ => rfl, nofun⟩

namespace Policy

theorem get?_bidders (policy : Policy) :
    policy.node.get? "bidders" = some (Node.vendorTable policy.bidders) := by
  have hentries : Toml.nodeEntries policy.writtenBidders =
      policy.bidders.entries.map fun entry => (entry.1, .integer entry.2.toNat) := by
    rw [Toml.nodeEntries, writtenBidders, List.map_map]
    rfl
  rw [Node.vendorTable, ← hentries]
  rfl

theorem stable : Stable ofNode? {} node := by
  refine readsRecord.stable ofNode?_node ?_
  simp only [List.forall_mem_cons]
  exact ⟨.of Node.stable_bool fun _ => rfl, .of Node.stable_bool fun _ => rfl,
    .of stable_purposes fun _ => rfl, .of stable_location fun _ => rfl,
    .of (.word TreatmentRule.ofKey?_key) fun _ => rfl,
    .of Node.stable_vendorMap get?_bidders, nofun⟩

/-- The document of a policy is read as the policy again below the texts below which any document
was. -/
theorem stable_document : Stable ofDocument? {} fun policy => .table [("gdpr", policy.node)] := by
  refine readsRecord_document.stable Settings.ofDocument?_node ?_
  simp only [List.forall_mem_cons]
  exact ⟨.of stable fun _ => rfl, nofun⟩

end Policy

/-! ## Variables without brackets -/

namespace Path

/-- A path without brackets goes by keys only. -/
theorem steps?_of_noBracket {s : List Char} (h : '[' ∉ s) {path : Path}
    (hpath : steps? s = some path) : ∃ keys : List String, path = keys.map .key := by
  fun_induction steps? s generalizing path with
  | case1 =>
    obtain rfl := Option.some.inj hpath
    exact ⟨[], rfl⟩
  | case2 rest hkey => cases hpath
  | case3 rest hkey ih =>
    obtain ⟨path, hrest, rfl⟩ := Option.map_eq_some_iff.1 hpath
    have hafter : '[' ∉ rest.dropWhile isKeyChar := fun hmem =>
      h (List.mem_cons_of_mem _ ((List.dropWhile_sublist _).subset hmem))
    obtain ⟨keys, rfl⟩ := ih hafter hrest
    exact ⟨.ofList (rest.takeWhile isKeyChar) :: keys, rfl⟩
  | case4 rest => exact absurd List.mem_cons_self h
  | case5 rest => exact absurd List.mem_cons_self h
  | case6 => cases hpath

theorem ofText?_of_noBracket {text : String} (h : '[' ∉ text.toList) {path : Path}
    (hpath : ofText? text = some path) : ∃ keys : List String, path = keys.map .key := by
  unfold ofText? at hpath
  split at hpath
  · cases hpath
  · obtain ⟨path, hrest, rfl⟩ := Option.map_eq_some_iff.1 hpath
    have hafter : '[' ∉ text.toList.dropWhile isKeyChar := fun hmem =>
      h ((List.dropWhile_sublist _).subset hmem)
    obtain ⟨keys, rfl⟩ := steps?_of_noBracket hafter hrest
    exact ⟨_ :: keys, rfl⟩

end Path

namespace Variable

theorem mem_of_mem_dotted {c : Char} {s : List Char} (h : c ∈ dotted s) : c = '.' ∨ c ∈ s := by
  fun_induction dotted s with
  | case1 rest ih =>
    rcases List.mem_cons.1 h with rfl | h
    · exact .inl rfl
    · exact (ih h).imp_right fun hmem => List.mem_cons_of_mem _ (List.mem_cons_of_mem _ hmem)
  | case2 d rest _ ih =>
    rcases List.mem_cons.1 h with rfl | h
    · exact .inr List.mem_cons_self
    · exact (ih h).imp_right (List.mem_cons_of_mem _)
  | case3 => exact .inr h

/-- No capital letter is a bracket in lower case. -/
theorem lowerChar_eq_bracket {c : Char} (h : lowerChar c = '[') : c = '[' := by
  unfold lowerChar at h
  split at h
  · rename_i hrange
    have hlow : 65 ≤ c.toNat := hrange.1
    have hhigh : c.toNat ≤ 90 := hrange.2
    have hvalid : (c.toNat + 32).isValidChar := .inl (by omega)
    rw [Char.ofNat, dif_pos hvalid] at h
    have hcode : c.toNat + 32 = 91 := congrArg Char.toNat h
    omega
  · split at h
    · cases h
    · exact h

/-- The name of a setting has no bracket if the name of the variable has none. -/
theorem noBracket_settingName {v : Variable} (h : '[' ∉ v.name.toList) {name : String}
    (hname : v.settingName? = some name) : '[' ∉ name.toList := by
  rw [settingName?_eq] at hname
  split at hname
  · obtain rfl := Option.some.inj hname
    rw [String.toList_ofList]
    intro hmem
    rcases mem_of_mem_dotted hmem with heq | hmem
    · cases heq
    · obtain ⟨c, hc, hlower⟩ := List.mem_map.1 (List.mem_of_mem_drop hmem)
      exact h (lowerChar_eq_bracket hlower ▸ hc)
  · cases hname

end Variable

namespace Settings

/-- Variables without brackets in their names lay texts below keys. -/
theorem exists_texts {environment : List Variable}
    (h : ∀ v ∈ environment, v.settingName?.isSome → '[' ∉ v.name.toList) :
    ∃ texts : Node.Texts, ∀ document : Node,
      some (document.layAll (overrides environment)) = Node.layTexts texts (some document) := by
  induction environment with
  | nil => exact ⟨[], fun _ => rfl⟩
  | cons v environment ih =>
    obtain ⟨texts, htexts⟩ := ih fun w hw => h w (List.mem_cons_of_mem _ hw)
    cases hname : v.settingName? with
    | none =>
      have hsetting : v.setting? = none := by rw [Variable.setting?, hname, Option.map_none]
      refine ⟨texts, fun document => ?_⟩
      rw [overrides, List.filterMap_cons_none hsetting]
      exact htexts document
    | some name =>
      have hsetting : v.setting? = some (name, .text v.value) := by
        rw [Variable.setting?, hname, Option.map_some]
      have hbracket : '[' ∉ name.toList :=
        Variable.noBracket_settingName (h v List.mem_cons_self (hname ▸ rfl)) hname
      obtain ⟨keys, hkeys⟩ : ∃ keys : List String,
          (Path.ofText? name).getD [.key name] = keys.map .key := by
        cases hpath : Path.ofText? name with
        | none => exact ⟨[name], rfl⟩
        | some path => exact Path.ofText?_of_noBracket hbracket hpath
      refine ⟨(keys, v.value) :: texts, fun document => ?_⟩
      have hlay : document.lay name (.text v.value) = document.layText keys v.value := by
        rw [Node.lay, hkeys, Node.layText]
      rw [Node.layTexts_cons, Option.getD_some, ← hlay, ← htexts, overrides,
        List.filterMap_cons_some hsetting]
      rfl

/-- What is loaded in an environment is loaded from its canonical text again. -/
theorem load_again {text : String} {environment : List Variable} {policy : Policy}
    (hnames : ∀ v ∈ environment, v.settingName?.isSome → '[' ∉ v.name.toList)
    (hload : load text environment = .ok policy) :
    load policy.canonicalText environment = .ok policy := by
  obtain ⟨texts, htexts⟩ := exists_texts hnames
  obtain ⟨_, hdocument, hpolicy, hvalid⟩ := load_eq_ok_iff.1 hload
  rw [document?_eq_map] at hdocument
  obtain ⟨document, hwritten, rfl⟩ := Option.map_eq_some_iff.1 hdocument
  have hdistinct (node : Node) (hnode : node ∈ some document) : node.DistinctKeys := by
    cases hnode
    exact distinctKeys_document hwritten
  have hmerged : Node.field (Node.layTexts texts (some document)) Policy.ofDocument? {} =
      some policy := by
    rw [← htexts]
    exact hpolicy
  have hagain := Policy.stable_document texts (some document) hdistinct policy hmerged
  rw [← htexts] at hagain
  have hcanonical : document? policy.canonicalText [] = some (.table [("gdpr", policy.node)]) :=
    document?_canonicalText (List.forall_mem_nil _) policy
  refine load_eq_ok_iff.2 ⟨_, ?_, hagain, hvalid⟩
  rw [document?_eq_map, hcanonical, Option.map_some]

open CommandLine in
/-- A settings file whose text loads as the same policy is loaded with the same reports. -/
theorem loadPolicy_update {files : Files} {environment : List Variable} {verbose : Bool}
    {path text text' : String} {policy : Policy} (hfile : files path = .ok text)
    (hload : load text environment = .ok policy) (hload' : load text' environment = .ok policy) :
    loadPolicy (Function.update files path (.ok text')) environment verbose path =
      loadPolicy files environment verbose path := by
  have hread : readFile files path = .of (.ok text) := by rw [readFile, hfile]; rfl
  have hread' : readFile (Function.update files path (.ok text')) path = .of (.ok text') := by
    rw [readFile, Function.update_self]
    rfl
  have hnext (text : String) (next : String → Run Policy) :
      (Run.of (.ok text) >>= next) = next text := rfl
  rw [loadPolicy, loadPolicy, hread, hread', hnext, hnext, hload, hload']

/-- Where no name of an overriding variable has a bracket, merging an environment into settings
comes to rest at once: the canonical text of what is loaded is loaded as the same policy in the same
environment, wherever its variables lead, and however often and in whatever order. So a settings
file can be replaced by the canonical text of what it is loaded as. -/
theorem merging_rests {text : String} {environment : List Variable} {policy : Policy}
    (hnames : ∀ v ∈ environment, v.settingName?.isSome → '[' ∉ v.name.toList)
    (hload : load text environment = .ok policy) :
    load policy.canonicalText environment = .ok policy ∧
    ∀ (files : Files) (verbose : Bool) (path : String), files path = .ok text →
      CommandLine.loadPolicy (Function.update files path (.ok policy.canonicalText)) environment
          verbose path =
        CommandLine.loadPolicy files environment verbose path := by
  have hagain := load_again hnames hload
  exact ⟨hagain, fun _ _ _ hfile => loadPolicy_update hfile hload hagain⟩

/-- Settings with a purpose as a list, and with words as tables. -/
def irregularText : String :=
  "[gdpr]\npurpose_one_treatment_interpretation = { no_access_allowed = 1 }\n" ++
    "[gdpr.purposes]\np2 = [{ basic = 1 }, \"no\", [\"house\"]]\np3 = [\"no\", false]\n"

/-- Variables past a word, into a list, above fields, at no path, and at a bidder twice. -/
def straying : List Variable :=
  [⟨"TCF_BROKER__GDPR__PURPOSE_ONE_TREATMENT_INTERPRETATION__NO_ACCESS_ALLOWED__A", "x"⟩,
    ⟨"TCF_BROKER__GDPR__PURPOSES__P2__ENFORCE_VENDORS", "off"⟩,
    ⟨"TCF_BROKER__GDPR__BIDDERS", "x"⟩, ⟨"TCF_BROKER__GDPR__BIDDERS__RUBICON__A", "x"⟩,
    ⟨"TCF_BROKER__GDPR__BIDDERS__RUBICON", "52"⟩, ⟨"tcf_broker__a b", "x"⟩,
    ⟨"TCF_BROKER__OTHER__KEY", "x"⟩, ⟨"HOME[", "/root"⟩]

theorem merging_rests_straying :
    ∃ policy : Policy, policy.treatment = .noAccess ∧
      policy.purposes.get .two = { checksVendors := false } ∧
      (policy.purposes.get .three).strictness = .off ∧
      policy.bidders = .ofList [("rubicon", 52)] ∧
      load irregularText straying = .ok policy ∧
      load policy.canonicalText straying = .ok policy := by
  have hnames : ∀ v ∈ straying, v.settingName?.isSome → '[' ∉ v.name.toList := by decide +kernel
  have hload : load irregularText straying = .ok
      { treatment := .noAccess
        purposes := (PerPurpose.set (.ofFn fun _ => {}) .two { checksVendors := false }).set .three
          { strictness := .off, checksVendors := false }
        bidders := .ofList [("rubicon", 52)] } := by
    decide +kernel
  exact ⟨_, rfl, by decide +kernel, by decide +kernel, rfl, hload, (merging_rests hnames hload).1⟩

end Settings

end ConsentGate
