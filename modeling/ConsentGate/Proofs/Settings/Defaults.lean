import ConsentGate.Proofs.Settings.Omission
import ConsentGate.Proofs.Settings.RoundTrip

/-!
# Leaving defaults out

A part of a policy is read as what was written for it from what is left when defaults are left out:
from the node, from a table with some of its entries, and from nothing at all. For this, the default
for nothing at all has to be what an empty table is read as, which has defaults of its own for the
fields of the table. This is shown for each record from the records that are its fields.

Results:

* `Node.Restores.field`: where a part is restored, the field with the part is.
* `PurposePolicy.restores`, `FeaturePolicy.restores`, `Policy.restores`: records are restored.
* `Settings.load_of_omits`: a policy is loaded from what is left of its document.
-/

namespace ConsentGate

open Node (Omits Remains Reorders)
open Toml (Section Writable Written nodeEntries tableEntries)

/-! ## Parts that are restored -/

namespace Node

variable {β : Type} {part? : Node → Option β} {partDefault : β} {write : β → Node}

/-- A part is read back from what is written for it, and from what is left of that when it is a
table; an empty table is read as the default. -/
structure Restores (part? : Node → Option β) (partDefault : β) (write : β → Node) : Prop where
  whole : ∀ b, part? (write b) = some b
  table : ∀ b inner rest, write b = .table inner →
    Remains (write partDefault).entries inner rest → part? (.table rest) = some b
  empty : ∀ b inner, write b = .table inner → part? (.table []) = some partDefault

/-- A part that is no table is restored if it is read back. -/
theorem Restores.leaf (h : ∀ b, part? (write b) = some b) (hleaf : ∀ b, ¬ (write b).IsTable) :
    Restores part? partDefault write where
  whole := h
  table b inner _ htable _ := absurd ⟨inner, htable⟩ (hleaf b)
  empty b inner htable := absurd ⟨inner, htable⟩ (hleaf b)

/-- A part that is a table is restored if it is read from what is left of the table. -/
theorem Restores.record {entries : β → List (String × Node)}
    (hempty : part? (.table []) = some partDefault)
    (h : ∀ b rest, Remains (entries partDefault) (entries b) rest → part? (.table rest) = some b) :
    Restores part? partDefault fun b => .table (entries b) where
  whole b := h b _ (.refl _)
  table b inner rest htable hrest := by
    cases htable
    exact h b rest hrest
  empty _ _ _ := hempty

/-- Where a part is restored, the field with the part is. -/
theorem Restores.field (hpart : Restores part? partDefault write)
    {defaults entries rest : List (String × Node)} {key : String} {b : β}
    (h : Remains defaults entries rest) (hkeys : (entries.map Prod.fst).Nodup)
    (hdefault : defaults.lookup key = some (write partDefault))
    (hentry : (key, write b) ∈ entries) :
    Node.field (rest.lookup key) part? partDefault = some b := by
  have hbelow : entriesAt defaults key = (write partDefault).entries := by
    rw [entriesAt, hdefault, Option.getD_some]
  have hleaves := h.leaves hkeys hentry
  generalize rest.lookup key = left at hleaves ⊢
  cases hleaves with
  | kept => exact hpart.whole b
  | keptTable htable hinner =>
    rw [hbelow] at hinner
    exact hpart.table b _ _ htable hinner
  | dropped hnode =>
    -- two values that are written alike are the same
    have hwritten : write partDefault = write b := Option.some.inj (hdefault.symm.trans hnode)
    rw [← hpart.whole b, ← hwritten]
    exact (hpart.whole partDefault).symm
  | emptied htable hinner =>
    rw [hbelow] at hinner
    exact (hpart.empty b _ htable).symm.trans (hpart.table b _ _ htable hinner)

end Node

open Node (Restores)

/-! ## Values -/

theorem restores_bool {default : Bool} : Restores Node.bool? default .boolean :=
  .leaf (fun _ => rfl) fun _ ⟨_, h⟩ => nomatch h

theorem restores_strictness :
    Restores (fun n => n.variant?.bind Strictness.ofKey?) .full fun x => .text x.key :=
  .leaf Strictness.ofKey?_key fun _ ⟨_, h⟩ => nomatch h

theorem restores_treatment :
    Restores (fun n => n.variant?.bind TreatmentRule.ofKey?) .ignore fun x => .text x.key :=
  .leaf TreatmentRule.ofKey?_key fun _ ⟨_, h⟩ => nomatch h

theorem restores_texts : Restores Node.textSet? ∅ fun s => .list (s.toList.map .text) :=
  .leaf Node.textSet?_texts fun _ ⟨_, h⟩ => nomatch h

/-! ## Records -/

theorem PurposePolicy.restores : Restores ofNode? {} node :=
  .record rfl fun policy rest h => by
    have hkeys := (Toml.distinctKeys_table policy.nodup_written).1
    rw [ofNode?_table_iff]
    exact ⟨restores_strictness.field h hkeys rfl (by simp [nodeEntries, written, Written.node]),
      restores_bool.field h hkeys rfl (by simp [nodeEntries, written, Written.node]),
      restores_texts.field h hkeys rfl (by simp [nodeEntries, written, Written.node])⟩

theorem FeaturePolicy.restores : Restores ofNode? {} node :=
  .record rfl fun policy rest h => by
    have hkeys := (Toml.distinctKeys_table policy.nodup_written).1
    rw [ofNode?_table_iff]
    exact ⟨restores_bool.field h hkeys rfl (by simp [nodeEntries, written, Written.node]),
      restores_texts.field h hkeys rfl (by simp [nodeEntries, written, Written.node])⟩

namespace Policy

theorem restores_purposes : Restores purposePolicies? (.ofFn fun _ => {})
    fun policies => .table (tableEntries (writtenPurposes { purposes := policies })) :=
  .record rfl fun policies rest h => by
    have hkeys := (distinctTables_purposes { purposes := policies }).distinctKeys.1
    rw [purposePolicies?_table_iff]
    intro p
    have hdefault : (tableEntries (writtenPurposes {})).lookup p.key =
        some (PurposePolicy.node {}) := by
      cases p <;> rfl
    exact PurposePolicy.restores.field h hkeys hdefault
      (List.mem_map_of_mem (List.mem_map_of_mem p.mem_all))

theorem restores_location : Restores locationPolicy? {}
    fun location => .table (tableEntries (writtenFeatures { location := location })) :=
  .record rfl fun location rest h => by
    have hkeys := (distinctTables_features { location := location }).distinctKeys.1
    rw [locationPolicy?_table_iff]
    exact FeaturePolicy.restores.field h hkeys rfl List.mem_cons_self

/-- No bidder is a default, so all of them are left. -/
theorem restores_bidders : Restores Node.vendorMap? ∅
    fun bidders => .table (nodeEntries (writtenBidders { bidders := bidders })) :=
  .record rfl fun bidders rest h => by
    have hcodes := nodup_writtenBidders { bidders := bidders }
    have hwhole : Node.vendorMap? (.table (nodeEntries (writtenBidders { bidders := bidders }))) =
        some bidders := by
      rw [nodeEntries, writtenBidders, List.map_map]
      exact Node.vendorMap?_table bidders
    have hleft : Remains [] (nodeEntries (writtenBidders { bidders := bidders })) rest := h
    obtain ⟨hkeys, hlookup⟩ := hleft.lookup_of_nodeEntries hcodes
    rw [Node.vendorMap?_table_iff (Toml.distinctKeys_table hcodes).1] at hwhole
    rw [Node.vendorMap?_table_iff hkeys]
    intro code
    rw [hlookup, hwhole code]

theorem restores : Restores ofNode? {} node :=
  .record rfl fun policy rest h => by
    have hkeys := policy.nodup_entries
    rw [ofNode?_table_iff]
    exact ⟨restores_bool.field h hkeys rfl (by simp [entries, nodeEntries, written, Written.node]),
      restores_bool.field h hkeys rfl (by simp [entries, nodeEntries, written, Written.node]),
      restores_purposes.field h hkeys rfl (by simp [entries, writtenPurposes]),
      restores_location.field h hkeys rfl (by simp [entries, writtenFeatures]),
      restores_treatment.field h hkeys rfl (by simp [entries, nodeEntries, written, Written.node]),
      restores_bidders.field h hkeys rfl (by simp [entries, writtenBidders])⟩

/-- The entries of the document of a policy. -/
def documentEntries (policy : Policy) : List (String × Node) := [("gdpr", policy.node)]

/-- The document of a policy can be written, as it is in the canonical text. -/
theorem writable_documentEntries (policy : Policy) : Writable 3 policy.documentEntries := by
  have hsections := policy.wellFormed_sections
  simp only [sections, List.cons_append, List.forall_mem_cons, List.forall_mem_append,
    List.forall_mem_map] at hsections
  obtain ⟨hown, hpurposes, hlocation, hbidders, -⟩ := hsections
  have hpurposeTables : Writable 1 (tableEntries policy.writtenPurposes) :=
    .tables policy.distinctTables_purposes (List.forall_mem_map.2 fun p hp => (hpurposes p hp).fits)
  have hfeatureTables : Writable 1 (tableEntries policy.writtenFeatures) :=
    .tables policy.distinctTables_features (List.forall_mem_singleton.2 hlocation.fits)
  have hvendors : Writable 1 (nodeEntries policy.writtenBidders) :=
    .values policy.nodup_writtenBidders hbidders.fits
  have htables : Writable 2
      [("purposes", .table (tableEntries policy.writtenPurposes)),
        ("special_features", .table (tableEntries policy.writtenFeatures)),
        ("bidders", .table (nodeEntries policy.writtenBidders))] :=
    .table (by simp) hpurposeTables (by simp [Node.IsTable])
      (.table (by simp) hfeatureTables (by simp [Node.IsTable])
        (.table List.not_mem_nil hvendors (List.forall_mem_nil _) .nil))
  have hkeys : (ownNames ++ ["purposes", "special_features", "bidders"]).Nodup := by decide
  exact .table List.not_mem_nil (htables.append hown.fits hkeys) (List.forall_mem_nil _) .nil

end Policy

/-! ## Loading -/

namespace Settings

theorem layAll_of_keys {entries : List (String × Node)}
    (hkeys : ∀ name ∈ entries.map Prod.fst, name = "gdpr") (h : (Node.table entries).DistinctKeys) :
    Node.layAll (.table []) entries = .table entries := by
  match entries with
  | [] => rfl
  | [(key, node)] =>
    obtain rfl : key = "gdpr" := hkeys key List.mem_cons_self
    exact Policy.layAll_gdpr h.2.1
  | (key, _) :: (key', _) :: _ =>
    have hsame : key = key' := (hkeys key (by simp)).trans (hkeys key' (by simp)).symm
    exact absurd h.1 (by simp [hsame])

/-- A valid policy is loaded from what is left of its document when defaults are left out, where no
variable overrides a setting: there is a text of what is left, and each text of it, in any order, is
loaded as the policy. -/
theorem load_of_omits (policy : Policy) (hvalid : policy.Valid) {rest : List (String × Node)}
    (h : Omits (Policy.documentEntries {}) policy.documentEntries rest) :
    (∃ text, Toml.document? text = some (.table rest)) ∧
    ∀ text environment entries, Toml.document? text = some (.table entries) →
      Reorders rest entries → (∀ v ∈ environment, v.settingName? = none) →
        load text environment = .ok policy := by
  have hwritable : Writable 3 rest := h.writable policy.writable_documentEntries
  have htables : ∀ entry ∈ rest, entry.2.IsTable :=
    h.isTable (List.forall_mem_singleton.2 ⟨_, rfl⟩)
  refine ⟨hwritable.exists_text (by decide) htables, ?_⟩
  intro text environment entries htext horder henvironment
  have hgdpr (name : String) (hname : name ∈ entries.map Prod.fst) : name = "gdpr" :=
    List.mem_singleton.1 (h.keys.subset (horder.keys.mem_iff.2 hname))
  have hlay : Node.layAll (.table []) entries = .table entries :=
    layAll_of_keys hgdpr (horder.distinctKeys hwritable.distinctKeys)
  have hkeys := policy.writable_documentEntries.distinctKeys.1
  have hpolicy : Policy.ofDocument? (.table entries) = some policy :=
    Policy.restores.field ⟨rest, h, horder⟩ hkeys rfl List.mem_cons_self
  rw [load_of_decoded (document?_of_layAll henvironment htext hlay) hpolicy,
    if_pos (Policy.invalidPlaces_eq_nil_iff.2 hvalid)]

/-- A policy with one purpose that is not enforced in full, and one bidder. -/
def trusting : Policy where
  purposes := PerPurpose.set (.ofFn fun _ => {}) .two { strictness := .basic }
  bidders := .ofList [("rubicon", 52)]

/-- What is left of its document without the defaults, and with two tables that are empty then. -/
def trustingEntries : List (String × Node) :=
  [("purposes", .table [("p2", .table [("enforce_purpose", .text "basic")]), ("p7", .table [])]),
    ("special_features", .table []), ("bidders", .table [("rubicon", .integer 52)])]

/-- A text of what is left, the last table first. -/
def trustingText : String :=
  "[gdpr.bidders]\nrubicon = 52\n\n[gdpr.special_features]\n\n" ++
    "[gdpr.purposes.p2]\nenforce_purpose = \"basic\"\n\n[gdpr.purposes.p7]\n"

/-- The policy is loaded from a text with its tables in another order. -/
theorem load_of_omits_trusting :
    trusting.Valid ∧
    Omits (Policy.documentEntries {}) trusting.documentEntries
      [("gdpr", .table trustingEntries)] ∧
    Toml.document? trustingText = some (.table [("gdpr", .table trustingEntries.reverse)]) ∧
    Reorders [("gdpr", .table trustingEntries)] [("gdpr", .table trustingEntries.reverse)] ∧
    (∃ text, Toml.document? text = some (.table [("gdpr", .table trustingEntries)])) ∧
    load trustingText [⟨"HOME", "/root"⟩] = .ok trusting := by
  have hvalid : trusting.Valid := Policy.invalidPlaces_eq_nil_iff.1 (by decide +kernel)
  have hpurposes : Omits (tableEntries (Policy.writtenPurposes {}))
      (tableEntries trusting.writtenPurposes)
      [("p2", .table [("enforce_purpose", .text "basic")]), ("p7", .table [])] :=
    .drop rfl (.keepTable (.keep _ (.drop rfl (.drop rfl .nil)))
      (.drop rfl (.drop rfl (.drop rfl (.drop rfl
        (.keepTable (.drop rfl (.drop rfl (.drop rfl .nil)))
          (.drop rfl (.drop rfl (.drop rfl .nil)))))))))
  have homits : Omits (Policy.documentEntries {}) trusting.documentEntries
      [("gdpr", .table trustingEntries)] :=
    .keepTable (.drop rfl (.drop rfl (.drop rfl (.keepTable hpurposes
      (.keepTable (.drop rfl .nil) (.keep _ .nil)))))) .nil
  have horder : Reorders [("gdpr", .table trustingEntries)]
      [("gdpr", .table trustingEntries.reverse)] :=
    .inside [] [] "gdpr" (.perm (List.reverse_perm _).symm)
  have hrender : trustingText = Section.render
      [⟨["gdpr", "bidders"], [("rubicon", .number 52)]⟩, ⟨["gdpr", "special_features"], []⟩,
        ⟨["gdpr", "purposes", "p2"], [("enforce_purpose", .text "basic")]⟩,
        ⟨["gdpr", "purposes", "p7"], []⟩] := by
    decide +kernel
  have htext : Toml.document? trustingText =
      some (.table [("gdpr", .table trustingEntries.reverse)]) := by
    rw [hrender, Section.document?_render]
    · rfl
    · have hfits : (52 : Int) ≤ Int64.maxValue.toInt := by decide
      simp only [List.forall_mem_cons]
      refine ⟨?_, ?_, ?_, ?_, List.forall_mem_nil _⟩ <;>
        exact ⟨List.cons_ne_nil _ _, by decide, by simp [hfits, Written.Fits]⟩
  obtain ⟨hexists, hload⟩ := load_of_omits trusting hvalid homits
  exact ⟨hvalid, homits, htext, horder, hexists, hload _ _ _ htext horder (by decide +kernel)⟩

end Settings

end ConsentGate
