import ConsentGate.Proofs.Toml.Tables
import ConsentGate.Settings.Canonical
import ConsentGate.Settings.Loading

/-!
# Reading canonical settings

The canonical text of a policy reads as the node of the policy, whatever characters its codes have:
they stand as keys and as items of lists, and only the key `gdpr` goes through a path. The node
decodes to the policy. So a valid policy is loaded back, and one with a blank code is rejected for
that code and for nothing else.

Results:

* `Policy.document?_canonicalText`: the canonical text reads as the node of the policy.
* `Policy.ofNode?_node`: the node of a policy decodes to the policy.
* `Settings.load_canonicalText`: what loading a canonical text gives.
-/

namespace ConsentGate

open Toml (DistinctTables Section Written nodeEntries tableEntries)

/-! ## The node of a policy -/

/-- The node of a purpose policy. -/
def PurposePolicy.node (policy : PurposePolicy) : Node := .table (nodeEntries policy.written)

/-- The node of a special feature policy. -/
def FeaturePolicy.node (policy : FeaturePolicy) : Node := .table (nodeEntries policy.written)

theorem PurposePolicy.nodup_written (policy : PurposePolicy) :
    (policy.written.map Prod.fst).Nodup := by
  have hnames : fieldNames.Nodup := by decide
  exact hnames

theorem FeaturePolicy.nodup_written (policy : FeaturePolicy) :
    (policy.written.map Prod.fst).Nodup := by
  have hnames : fieldNames.Nodup := by decide
  exact hnames

theorem PurposePolicy.ofNode?_node (policy : PurposePolicy) :
    ofNode? policy.node = some policy := by
  obtain ⟨find, hfields, hfind⟩ : ∃ find, policy.node.fields? fieldNames = some find ∧ _ :=
    Node.fields?_table fieldNames policy.nodup_written
  simp only [nodeEntries, PurposePolicy.written, List.map_cons, List.forall_mem_cons] at hfind
  obtain ⟨hstrictness, hvendors, hexceptions, -⟩ := hfind
  simp only [ofNode?, hfields, hstrictness, hvendors, hexceptions, Option.bind_eq_bind,
    Option.bind_some, Option.pure_def, Node.field, Option.elim_some, Written.node, Node.variant?,
    Node.bool?, Node.textSet?_texts, Strictness.ofKey?_key]

theorem FeaturePolicy.ofNode?_node (policy : FeaturePolicy) :
    ofNode? policy.node = some policy := by
  obtain ⟨find, hfields, hfind⟩ : ∃ find, policy.node.fields? fieldNames = some find ∧ _ :=
    Node.fields?_table fieldNames policy.nodup_written
  simp only [nodeEntries, FeaturePolicy.written, List.map_cons, List.forall_mem_cons] at hfind
  obtain ⟨henforced, hexceptions, -⟩ := hfind
  simp only [ofNode?, hfields, henforced, hexceptions, Option.bind_eq_bind, Option.bind_some,
    Option.pure_def, Node.field, Option.elim_some, Written.node, Node.bool?, Node.textSet?_texts]

namespace Policy

/-- The values that a policy has of its own. -/
def written (policy : Policy) : List (String × Written) :=
  [("enabled", .boolean policy.enabled), ("default_value", .boolean policy.appliesByDefault),
    ("purpose_one_treatment_interpretation", .text policy.treatment.key)]

/-- The purposes with the values of their policies. -/
def writtenPurposes (policy : Policy) : List (String × List (String × Written)) :=
  Purpose.all.map fun p => (p.key, (policy.purposes.get p).written)

/-- The special features with the values of their policies. -/
def writtenFeatures (policy : Policy) : List (String × List (String × Written)) :=
  [("sf1", policy.location.written)]

/-- The vendor ids of the bidders as values. -/
def writtenBidders (policy : Policy) : List (String × Written) :=
  policy.bidders.entries.map fun (code, id) => (code, .number id.toNat)

/-- The entries of the node of a policy. -/
def entries (policy : Policy) : List (String × Node) :=
  nodeEntries policy.written ++
    [("purposes", .table (tableEntries policy.writtenPurposes)),
      ("special_features", .table (tableEntries policy.writtenFeatures)),
      ("bidders", .table (nodeEntries policy.writtenBidders))]

/-- The node of a policy. -/
def node (policy : Policy) : Node := .table policy.entries

/-- The names of the values that a policy has of its own. -/
def ownNames : List String := ["enabled", "default_value", "purpose_one_treatment_interpretation"]

theorem nodup_entries (policy : Policy) : (policy.entries.map Prod.fst).Nodup := by
  have hnames : (ownNames ++ ["purposes", "special_features", "bidders"]).Nodup := by decide
  exact hnames

theorem nodup_written (policy : Policy) : (policy.written.map Prod.fst).Nodup := by
  have hnames : ownNames.Nodup := by decide
  exact hnames

theorem distinctTables_purposes (policy : Policy) : DistinctTables policy.writtenPurposes := by
  have hkeys : ["p1", "p2", "p3", "p4", "p5", "p6", "p7", "p8", "p9", "p10"].Nodup := by decide
  refine ⟨hkeys, fun table htable => ?_⟩
  obtain ⟨p, -, rfl⟩ := List.mem_map.1 htable
  exact (policy.purposes.get p).nodup_written

theorem distinctTables_features (policy : Policy) : DistinctTables policy.writtenFeatures := by
  have hkeys : ["sf1"].Nodup := by decide
  exact ⟨hkeys, List.forall_mem_singleton.2 policy.location.nodup_written⟩

theorem nodup_writtenBidders (policy : Policy) : (policy.writtenBidders.map Prod.fst).Nodup := by
  rw [writtenBidders, List.map_map]
  exact policy.bidders.nodup_keys

/-! ## From the text to the node -/

/-- The sections of a policy behind the first, without their common first part. -/
def tables (policy : Policy) : List Section :=
  (policy.writtenPurposes.map Section.ofTable).map (Section.below "purposes") ++
    ((policy.writtenFeatures.map Section.ofTable).map (Section.below "special_features") ++
    [("bidders", policy.writtenBidders)].map Section.ofTable)

theorem sections_eq (policy : Policy) :
    policy.sections =
      .ofTable ("gdpr", policy.written) :: policy.tables.map (Section.below "gdpr") := rfl

theorem wellFormed_sections (policy : Policy) : ∀ s ∈ policy.sections, s.WellFormed := by
  have hparts {n : Nat} (h : n ≤ 3) : n ≤ Toml.maximalParts := Nat.le_trans h (by decide)
  intro s hs
  rw [sections, List.cons_append, List.mem_cons, List.mem_append, List.mem_map, List.mem_cons,
    List.mem_singleton] at hs
  rcases hs with rfl | ⟨p, -, rfl⟩ | rfl | rfl
  · exact ⟨List.cons_ne_nil _ _, hparts (n := 1) (by decide), by simp [Written.Fits]⟩
  · exact ⟨List.cons_ne_nil _ _, hparts (n := 3) (by decide),
      by simp [PurposePolicy.written, Written.Fits]⟩
  · exact ⟨List.cons_ne_nil _ _, hparts (n := 3) (by decide),
      by simp [FeaturePolicy.written, Written.Fits]⟩
  · refine ⟨List.cons_ne_nil _ _, hparts (n := 2) (by decide), fun entry hentry => ?_⟩
    obtain ⟨⟨code, id⟩, -, rfl⟩ := List.mem_map.1 hentry
    have hid : (id.toNat : Int) < (2 ^ 32 : Nat) := Int.ofNat_lt.2 id.toNat_lt
    exact Int.le_trans (Int.le_of_lt hid) (by decide)

/-- The items of the table of a policy. -/
def items (policy : Policy) : List (String × Toml.Item) :=
  Toml.closedItems policy.written ++
    [("purposes", .table .passed (Toml.tableItems policy.writtenPurposes)),
      ("special_features", .table .passed (Toml.tableItems policy.writtenFeatures)),
      ("bidders", .table .written (Toml.closedItems policy.writtenBidders))]

theorem place_tables (policy : Policy) :
    policy.tables.foldlM Section.place (Toml.closedItems policy.written) = some policy.items := by
  -- which names stand in front of a group does not depend on the items
  have hpurposes : "purposes" ∉ (Toml.closedItems policy.written).map Prod.fst :=
    (by decide : "purposes" ∉ ownNames)
  have hfeatures (purposes : Toml.Item) : "special_features" ∉
      (Toml.closedItems policy.written ++ [("purposes", purposes)]).map Prod.fst :=
    (by decide : "special_features" ∉ ownNames ++ ["purposes"])
  have hbidders (purposes features : Toml.Item) :
      ((Toml.closedItems policy.written ++ [("purposes", purposes)] ++
        [("special_features", features)]).map Prod.fst ++
        [("bidders", policy.writtenBidders)].map Prod.fst).Nodup :=
    (by decide : (ownNames ++ ["purposes"] ++ ["special_features"] ++ ["bidders"]).Nodup)
  have hvendors : ∀ table ∈ [("bidders", policy.writtenBidders)], (table.2.map Prod.fst).Nodup :=
    List.forall_mem_singleton.2 policy.nodup_writtenBidders
  have hne : policy.writtenPurposes ≠ [] := List.cons_ne_nil _ _
  have hne' : policy.writtenFeatures ≠ [] := List.cons_ne_nil _ _
  rw [tables, List.foldlM_append,
    Section.place_group hpurposes hne policy.distinctTables_purposes,
    Option.bind_eq_bind, Option.bind_some, List.foldlM_append,
    Section.place_group (hfeatures _) hne' policy.distinctTables_features,
    Option.bind_eq_bind, Option.bind_some, Section.place_siblings (hbidders _ _) hvendors,
    List.append_assoc, List.append_assoc]
  rfl

theorem nodes_items (policy : Policy) : Toml.nodes policy.items = policy.entries := by
  simp only [items, Toml.nodes_append, Toml.nodes_closedItems, Toml.nodes, Toml.Item.node,
    Toml.nodes_tableItems, entries]

/-- The canonical text of a policy reads as the node of the policy. -/
theorem document?_canonicalText (policy : Policy) :
    Toml.document? policy.canonicalText = some (.table [("gdpr", policy.node)]) := by
  have hfirst : Section.place [] (.ofTable ("gdpr", policy.written)) =
      some ([] ++ [("gdpr", .table .written (Toml.closedItems policy.written))]) :=
    Toml.addTable_of_not_mem List.not_mem_nil policy.nodup_written
  have hheader : ∀ s ∈ policy.tables, s.header ≠ [] := by
    intro s hs
    simp only [tables, List.map_map, List.mem_append, List.mem_map, List.mem_singleton] at hs
    rcases hs with ⟨_, -, rfl⟩ | ⟨_, -, rfl⟩ | ⟨_, -, rfl⟩ <;> exact List.cons_ne_nil _ _
  rw [canonicalText, Section.document?_render policy.wellFormed_sections, sections_eq,
    List.foldlM_cons, hfirst, Option.bind_eq_bind, Option.bind_some,
    Section.place_below_table hheader List.not_mem_nil, place_tables]
  simp only [Option.map_some, List.nil_append, Toml.nodes, Toml.Item.node, nodes_items, node]

/-! ## From the node to the policy -/

theorem distinctKeys_node (policy : Policy) : policy.node.DistinctKeys := by
  refine ⟨policy.nodup_entries, Node.distinctEntries_iff.2 fun entry hentry => ?_⟩
  rcases List.mem_append.1 hentry with hentry | hentry
  · exact Node.distinctEntries_iff.1 (Toml.distinctEntries_nodeEntries _) entry hentry
  · simp only [List.mem_cons, List.not_mem_nil, or_false] at hentry
    rcases hentry with rfl | rfl | rfl
    · exact policy.distinctTables_purposes.distinctKeys
    · exact policy.distinctTables_features.distinctKeys
    · exact Toml.distinctKeys_table policy.nodup_writtenBidders

/-- The one key that goes through a path. -/
theorem path?_gdpr : Path.ofText? "gdpr" = some [.key "gdpr"] := by
  decide +kernel

/-- A node under the key `gdpr` is laid over nothing as it is. -/
theorem layAll_gdpr {node : Node} (h : node.DistinctKeys) :
    Node.layAll (.table []) [("gdpr", node)] = .table [("gdpr", node)] := by
  have hlay : Node.layAll (.table []) [("gdpr", node)] =
      (Node.table []).setAt [.key "gdpr"] fun old => old.overlay node := by
    rw [Node.layAll, List.foldl_cons, List.foldl_nil]
    simp only [Node.lay, path?_gdpr, Option.getD_some]
  have hover : Node.overlay .nil node = node := Node.overlay_of_distinctKeys rfl node h
  rw [hlay, Node.setAt, Node.entries, upsert, Option.getD_none, Node.setAt, hover]

theorem purposePolicies?_node (policy : Policy) :
    purposePolicies? (.table (tableEntries policy.writtenPurposes)) = some policy.purposes := by
  obtain ⟨find, hfields, hfind⟩ :=
    Node.fields?_table (Purpose.all.map Purpose.key) policy.distinctTables_purposes.distinctKeys.1
  have hpurpose (p : Purpose) : find p.key = some (policy.purposes.get p).node :=
    hfind (p.key, _) (List.mem_map_of_mem (List.mem_map_of_mem p.mem_all))
  simp only [purposePolicies?, hfields, hpurpose, Option.bind_eq_bind, Option.bind_some, Node.field,
    Option.elim_some, PurposePolicy.ofNode?_node]
  rfl

theorem locationPolicy?_node (policy : Policy) :
    locationPolicy? (.table (tableEntries policy.writtenFeatures)) = some policy.location := by
  have hfind : (tableEntries policy.writtenFeatures).lookup "sf1" = some policy.location.node :=
    List.lookup_cons_self
  simp only [locationPolicy?, Node.fields?, hfind, Option.bind_eq_bind, Option.bind_some,
    Node.field, Option.elim_some, FeaturePolicy.ofNode?_node]

/-- The node of a policy decodes to the policy. -/
theorem ofNode?_node (policy : Policy) : ofNode? policy.node = some policy := by
  obtain ⟨find, hfields, hfind⟩ : ∃ find, policy.node.fields? fieldNames = some find ∧ _ :=
    Node.fields?_table fieldNames policy.nodup_entries
  have hown : nodeEntries policy.written = [("enabled", .boolean policy.enabled),
      ("default_value", .boolean policy.appliesByDefault),
      ("purpose_one_treatment_interpretation", .text policy.treatment.key)] := rfl
  simp only [entries, hown, List.cons_append, List.nil_append, List.forall_mem_cons] at hfind
  obtain ⟨henabled, happlies, htreatment, hpurposes, hfeatures, hbidders, -⟩ := hfind
  have hvendors : Node.vendorMap? (.table (nodeEntries policy.writtenBidders)) =
      some policy.bidders := by
    rw [nodeEntries, writtenBidders, List.map_map]
    exact Node.vendorMap?_table policy.bidders
  simp only [ofNode?, hfields, henabled, happlies, htreatment, hpurposes, hfeatures, hbidders,
    Option.bind_eq_bind, Option.bind_some, Option.pure_def, Node.field, Option.elim_some,
    Node.bool?, Node.variant?, TreatmentRule.ofKey?_key, purposePolicies?_node,
    locationPolicy?_node, hvendors]

end Policy

/-! ## Loading -/

namespace Settings

/-- A document that is laid over nothing as it is stays so where no variable is laid over it. -/
theorem document?_of_layAll {text : String} {environment : List Variable}
    {entries : List (String × Node)} (h : ∀ v ∈ environment, v.settingName? = none)
    (hdocument : Toml.document? text = some (.table entries))
    (hlay : Node.layAll (.table []) entries = .table entries) :
    document? text environment = some (.table entries) := by
  have hoverrides : overrides environment = [] :=
    List.filterMap_eq_nil_iff.2 fun v hv => by rw [Variable.setting?, h v hv, Option.map_none]
  rw [document?, hdocument, Option.map_some, Node.entries, hlay, hoverrides]
  rfl

theorem document?_canonicalText {environment : List Variable}
    (h : ∀ v ∈ environment, v.settingName? = none) (policy : Policy) :
    document? policy.canonicalText environment = some (.table [("gdpr", policy.node)]) :=
  document?_of_layAll h policy.document?_canonicalText (Policy.layAll_gdpr policy.distinctKeys_node)

theorem ofDocument?_node (policy : Policy) :
    Policy.ofDocument? (.table [("gdpr", policy.node)]) = some policy := by
  have hget : (Node.table [("gdpr", policy.node)]).get? "gdpr" = some policy.node :=
    List.lookup_cons_self
  rw [Policy.ofDocument?, hget, Node.field, Option.elim_some, Policy.ofNode?_node]

/-- A canonical text is loaded as its policy, as far as that is valid. -/
theorem load_canonicalText_eq {environment : List Variable}
    (h : ∀ v ∈ environment, v.settingName? = none) (policy : Policy) :
    load policy.canonicalText environment =
      if policy.invalidPlaces = [] then .ok policy
      else .error (.invalid policy.invalidPlaces) :=
  load_of_decoded (document?_canonicalText h policy) (ofDocument?_node policy)

/-- Where the environment overrides no setting, a valid policy is loaded back from its canonical
text, and any other one is rejected for the collections that hold a blank code. -/
theorem load_canonicalText (policy : Policy) (environment : List Variable)
    (h : ∀ v ∈ environment, v.settingName? = none) :
    (policy.Valid → load policy.canonicalText environment = .ok policy) ∧
    (¬ policy.Valid → ∃ places,
      load policy.canonicalText environment = .error (.invalid places) ∧
      (∀ place, place ∈ places ↔ ∃ code ∈ policy.codes place, Text.IsBlank code) ∧
      (Fault.settings (.invalid places)).message =
        "Configuration error: Settings validation failed") := by
  rw [load_canonicalText_eq h, ← Policy.invalidPlaces_eq_nil_iff]
  exact ⟨fun hvalid => if_pos hvalid, fun hinvalid =>
    ⟨policy.invalidPlaces, if_neg hinvalid, fun _ => Policy.mem_invalidPlaces, rfl⟩⟩

/-- A policy with codes that are hard to write, and one more bidder. -/
def awkward (code : String) : Policy where
  enabled := false
  purposes := PerPurpose.set (.ofFn fun _ => {}) .two
    { strictness := .basic, exceptions := .ofList ["gdpr.enabled", "\"]\n[\\", "\x01'\r"] }
  location := { enforced := false, exceptions := .ofList [" it's '''\n\n"] }
  treatment := .noAccess
  bidders := .ofList [("p1.[0]\\\"", 4294967295), ("\n= #", 0), (code, 7)]

/-- An awkward policy is loaded back, next to variables that look like overrides; with a blank
bidder code it is rejected for its bidders. -/
theorem load_canonicalText_awkward :
    (∀ v ∈ [Variable.mk "TCF_BROKER" "off", .mk "TCF_BROKER_GDPR__ENABLED" "true"],
      v.settingName? = none) ∧
    load (awkward "é.b").canonicalText
        [.mk "TCF_BROKER" "off", .mk "TCF_BROKER_GDPR__ENABLED" "true"] = .ok (awkward "é.b") ∧
    ∃ places, load (awkward "\u2003\t").canonicalText [] = .error (.invalid places) ∧
      ∀ place, place ∈ places ↔ place = .bidders := by
  have henvironment : ∀ v ∈ [Variable.mk "TCF_BROKER" "off",
      .mk "TCF_BROKER_GDPR__ENABLED" "true"], v.settingName? = none := by
    decide +kernel
  have hvalid : (awkward "é.b").invalidPlaces = [] := by decide +kernel
  have hblank : (awkward "\u2003\t").invalidPlaces = [.bidders] := by decide +kernel
  have hrejected : ¬ (awkward "\u2003\t").Valid := by
    rw [← Policy.invalidPlaces_eq_nil_iff, hblank]
    exact List.cons_ne_nil _ _
  refine ⟨henvironment, (load_canonicalText _ _ henvironment).1
    (Policy.invalidPlaces_eq_nil_iff.1 hvalid), ?_⟩
  obtain ⟨places, hload, hplaces, -⟩ := (load_canonicalText _ [] nofun).2 hrejected
  refine ⟨places, hload, fun place => ?_⟩
  rw [hplaces, ← Policy.mem_invalidPlaces, hblank, List.mem_singleton]

end Settings

end ConsentGate
