import ConsentGate.Node
import ConsentGate.Policy

/-!
# Reading settings nodes

Fields take their values from nodes of several kinds: a truth value also from a number or a word, a
vendor id also from a text or a truth value, a text also from any other scalar. A record is a table,
where unknown keys are passed over, or a list of its fields in their fixed order, where further
items are passed over; a field that is missing has its default. This is `try_deserialize` of
`from_toml`, for the fields that the specification lists in section 8.

Results:

* `Node.fields?_table`: the fields of a table are its entries.
* `Node.textSet?_texts`, `Node.vendorMap?_table`: the nodes of a set of texts and of a map to vendor
  ids have that set and that map.
* `Node.vendorMap?_table_iff`, `PurposePolicy.ofNode?_table_iff`, `FeaturePolicy.ofNode?_table_iff`,
  `purposePolicies?_table_iff`, `locationPolicy?_table_iff`, `Policy.ofNode?_table_iff`: what a
  table stands for is what its keys stand for.
-/

namespace ConsentGate

namespace Node

/-- A text with its capital ASCII letters in lower case. -/
def lowerCase (s : String) : String := s.map Char.toLower

/-- The truth value of a word. -/
def wordBool? (s : String) : Option Bool :=
  let word := lowerCase s
  if word ∈ ["1", "true", "on", "yes"] then some true
  else if word ∈ ["0", "false", "off", "no"] then some false
  else none

/-- The truth value of a node; a number is true unless it is zero. -/
def bool? : Node → Option Bool
  | boolean b => some b
  | integer i => some (i != 0)
  | float x => some !x.isZero
  | text s => wordBool? s
  | _ => none

/-- The number of decimal digits behind an optional plus sign. -/
def digits? (s : List Char) : Option Nat :=
  let digits := if s.head? = some '+' then s.drop 1 else s
  if digits ≠ [] ∧ digits.all Char.isDigit then some (Nat.ofDigitChars 10 digits 0) else none

/-- The number that a text stands for: 1 or 0 for a word, else its digits. -/
def wordNat? (s : String) : Option Nat :=
  let word := lowerCase s
  if word ∈ ["true", "on", "yes"] then some 1
  else if word ∈ ["false", "off", "no"] then some 0
  else digits? s.toList

/-- The natural number of a node. A floating-point number is rounded to the nearest, a half away
from zero; one below zero, or none at all, counts as zero. -/
def nat? : Node → Option Nat
  | boolean b => some b.toNat
  | integer i => if 0 ≤ i then some i.toNat else none
  | float .nan => some 0
  | float (.infinite true) => some 0
  | float x => x.toNat?
  | text s => wordNat? s
  | _ => none

/-- The vendor id of a node. -/
def vendor? (node : Node) : Option VendorId :=
  node.nat?.bind fun n => if n < UInt32.size then some (.ofNat n) else none

/-- The text of a node. -/
def text? : Node → Option String
  | text s => some s
  | boolean b => some (if b then "true" else "false")
  | integer i => some (toString i)
  | float x => some x.text
  | _ => none

/-- The word for one of several alternatives: a text, or the key of a table with one entry. -/
def variant? : Node → Option String
  | text s => some s
  | table [(key, _)] => some key
  | _ => none

/-- The set of the texts of a list. -/
def textSet? : Node → Option (OrderedSet String)
  | list items => (items.mapM text?).map OrderedSet.ofList
  | _ => none

/-- The vendor ids under the keys of a table. -/
def vendorMap? : Node → Option (OrderedMap String VendorId)
  | table entries =>
    (entries.mapM fun entry => (vendor? entry.2).map fun v => (entry.1, v)).map OrderedMap.ofList
  | _ => none

/-- The node of each field of a record with the given names. -/
def fields? (names : List String) : Node → Option (String → Option Node)
  | table entries => some fun name => entries.lookup name
  | list items => some fun name => (names.zip items).lookup name
  | _ => none

/-- The value of a field; a missing one has its default. -/
def field {α : Type} (node : Option Node) (read? : Node → Option α) (default : α) : Option α :=
  node.elim (some default) read?

/-- The fields of a table are its entries. -/
theorem fields?_table (names : List String) {entries : List (String × Node)}
    (h : (entries.map Prod.fst).Nodup) :
    ∃ find, (table entries).fields? names = some find ∧
      ∀ entry ∈ entries, find entry.1 = some entry.2 :=
  ⟨_, rfl, fun _ hentry => lookup_of_mem h hentry⟩

theorem textSet?_texts (s : OrderedSet String) : textSet? (list (s.toList.map text)) = some s := by
  have htext (t : String) : text? (text t) = some t := rfl
  have hitems : (s.toList.map text).mapM text? = some s.toList :=
    mapM_map_of_readsBack htext s.toList
  rw [textSet?, hitems, Option.map_some, OrderedSet.ofList_toList]

theorem vendor?_integer (v : VendorId) : vendor? (integer v.toNat) = some v := by
  have hnat : nat? (integer v.toNat) = some v.toNat := by
    rw [nat?, if_pos (Int.natCast_nonneg _), Int.toNat_natCast]
  rw [vendor?, hnat, Option.bind_some, if_pos v.toNat_lt, UInt32.ofNat_toNat]

theorem vendorMap?_table (m : OrderedMap String VendorId) :
    vendorMap? (table (m.entries.map fun entry => (entry.1, integer entry.2.toNat))) = some m := by
  have hentries : (m.entries.map fun entry => (entry.1, integer entry.2.toNat)).mapM
      (fun entry => (vendor? entry.2).map fun v => (entry.1, v)) = some m.entries := by
    apply mapM_map_of_readsBack
    intro entry
    rw [vendor?_integer, Option.map_some]
  rw [vendorMap?, hentries, Option.map_some, OrderedMap.ofList_entries]

/-- A table whose keys stand once has the vendor ids of its keys. -/
theorem vendorMap?_table_iff {entries : List (String × Node)} (h : (entries.map Prod.fst).Nodup)
    {m : OrderedMap String VendorId} :
    vendorMap? (table entries) = some m ↔
      ∀ code, (entries.lookup code).map vendor? = (m.find? code).map some := by
  have hreads {values : List (String × VendorId)}
      (hvalues : (entries.mapM fun entry => (vendor? entry.2).map fun v => (entry.1, v)) =
        some values) (code : String) :
      (entries.lookup code).map vendor? = ((OrderedMap.ofList values).find? code).map some := by
    obtain ⟨hkeys, hlookup⟩ := lookup_of_mapM hvalues
    rw [OrderedMap.find?_ofList_of_nodup (hkeys ▸ h), hlookup]
  rw [vendorMap?, Option.map_eq_some_iff]
  constructor
  · rintro ⟨values, hvalues, rfl⟩
    exact hreads hvalues
  · intro hm
    have hread (entry : String × Node) (hentry : entry ∈ entries) :
        ∃ v, vendor? entry.2 = some v := by
      have hcode := hm entry.1
      rw [lookup_of_mem h hentry, Option.map_some] at hcode
      obtain ⟨v, -, hv⟩ := Option.map_eq_some_iff.1 hcode.symm
      exact ⟨v, hv.symm⟩
    obtain ⟨values, hvalues⟩ := exists_mapM hread
    refine ⟨values, hvalues, OrderedMap.ext fun code => ?_⟩
    have hfound : ((OrderedMap.ofList values).find? code).map some = (m.find? code).map some :=
      (hreads hvalues code).symm.trans (hm code)
    exact Option.map_injective (fun _ _ => Option.some.inj) hfound

end Node

namespace PurposePolicy

/-- The fields of a purpose policy, in order. -/
def fieldNames : List String := ["enforce_purpose", "enforce_vendors", "vendor_exceptions"]

/-- The purpose policy of a node. -/
def ofNode? (node : Node) : Option PurposePolicy := do
  let find ← node.fields? fieldNames
  let strictness ←
    Node.field (find "enforce_purpose") (fun n => n.variant?.bind Strictness.ofKey?) .full
  let checksVendors ← Node.field (find "enforce_vendors") Node.bool? true
  let exceptions ← Node.field (find "vendor_exceptions") Node.textSet? ∅
  return { strictness, checksVendors, exceptions }

theorem ofNode?_table_iff {entries : List (String × Node)} {policy : PurposePolicy} :
    ofNode? (.table entries) = some policy ↔
      Node.field (entries.lookup "enforce_purpose")
        (fun n => n.variant?.bind Strictness.ofKey?) .full = some policy.strictness ∧
      Node.field (entries.lookup "enforce_vendors") Node.bool? true = some policy.checksVendors ∧
      Node.field (entries.lookup "vendor_exceptions") Node.textSet? ∅ = some policy.exceptions := by
  simp only [ofNode?, Node.fields?, Option.bind_eq_bind, Option.bind_some, Option.bind_eq_some_iff,
    Option.pure_def, Option.some.injEq]
  constructor
  · rintro ⟨strictness, hstrictness, checksVendors, hchecks, exceptions, hexceptions, rfl⟩
    exact ⟨hstrictness, hchecks, hexceptions⟩
  · rintro ⟨hstrictness, hchecks, hexceptions⟩
    exact ⟨_, hstrictness, _, hchecks, _, hexceptions, rfl⟩

end PurposePolicy

namespace FeaturePolicy

/-- The fields of a special feature policy, in order. -/
def fieldNames : List String := ["enforce", "vendor_exceptions"]

/-- The special feature policy of a node. -/
def ofNode? (node : Node) : Option FeaturePolicy := do
  let find ← node.fields? fieldNames
  let enforced ← Node.field (find "enforce") Node.bool? true
  let exceptions ← Node.field (find "vendor_exceptions") Node.textSet? ∅
  return { enforced, exceptions }

theorem ofNode?_table_iff {entries : List (String × Node)} {policy : FeaturePolicy} :
    ofNode? (.table entries) = some policy ↔
      Node.field (entries.lookup "enforce") Node.bool? true = some policy.enforced ∧
      Node.field (entries.lookup "vendor_exceptions") Node.textSet? ∅ = some policy.exceptions := by
  simp only [ofNode?, Node.fields?, Option.bind_eq_bind, Option.bind_some, Option.bind_eq_some_iff,
    Option.pure_def, Option.some.injEq]
  constructor
  · rintro ⟨enforced, henforced, exceptions, hexceptions, rfl⟩
    exact ⟨henforced, hexceptions⟩
  · rintro ⟨henforced, hexceptions⟩
    exact ⟨_, henforced, _, hexceptions, rfl⟩

end FeaturePolicy

/-- A value for each purpose, where all have one. -/
def PerPurpose.all? {α : Type} (f : Purpose → Option α) : Option (PerPurpose α) := do
  return ⟨← f .one, ← f .two, ← f .three, ← f .four, ← f .five, ← f .six, ← f .seven, ← f .eight,
    ← f .nine, ← f .ten⟩

/-- All purposes have a value exactly when each has its own. -/
theorem PerPurpose.all?_eq_some_iff {α : Type} {f : Purpose → Option α} {v : PerPurpose α} :
    PerPurpose.all? f = some v ↔ ∀ p, f p = some (v.get p) := by
  simp only [all?, Option.bind_eq_bind, Option.bind_eq_some_iff, Option.pure_def,
    Option.some.injEq]
  constructor
  · rintro ⟨_, h1, _, h2, _, h3, _, h4, _, h5, _, h6, _, h7, _, h8, _, h9, _, h10, rfl⟩ p
    cases p <;> assumption
  · intro h
    exact ⟨_, h .one, _, h .two, _, h .three, _, h .four, _, h .five, _, h .six, _, h .seven,
      _, h .eight, _, h .nine, _, h .ten, rfl⟩

/-- The purpose policies of a node. -/
def purposePolicies? (node : Node) : Option (PerPurpose PurposePolicy) := do
  let find ← node.fields? (Purpose.all.map Purpose.key)
  PerPurpose.all? fun p => Node.field (find p.key) PurposePolicy.ofNode? {}

theorem purposePolicies?_table_iff {entries : List (String × Node)}
    {policies : PerPurpose PurposePolicy} :
    purposePolicies? (.table entries) = some policies ↔ ∀ p : Purpose,
      Node.field (entries.lookup p.key) PurposePolicy.ofNode? {} = some (policies.get p) := by
  rw [purposePolicies?, Node.fields?, Option.bind_eq_bind, Option.bind_some,
    PerPurpose.all?_eq_some_iff]

/-- The policy for special feature 1 in a node. -/
def locationPolicy? (node : Node) : Option FeaturePolicy := do
  let find ← node.fields? ["sf1"]
  Node.field (find "sf1") FeaturePolicy.ofNode? {}

theorem locationPolicy?_table_iff {entries : List (String × Node)} {policy : FeaturePolicy} :
    locationPolicy? (.table entries) = some policy ↔
      Node.field (entries.lookup "sf1") FeaturePolicy.ofNode? {} = some policy := Iff.rfl

namespace Policy

/-- The fields of a policy, in order. -/
def fieldNames : List String :=
  ["enabled", "default_value", "purposes", "special_features",
    "purpose_one_treatment_interpretation", "bidders"]

/-- The policy of a node. -/
def ofNode? (node : Node) : Option Policy := do
  let find ← node.fields? fieldNames
  let enabled ← Node.field (find "enabled") Node.bool? true
  let appliesByDefault ← Node.field (find "default_value") Node.bool? true
  let purposes ← Node.field (find "purposes") purposePolicies? (.ofFn fun _ => {})
  let location ← Node.field (find "special_features") locationPolicy? {}
  let treatment ←
    Node.field (find "purpose_one_treatment_interpretation")
      (fun n => n.variant?.bind TreatmentRule.ofKey?) .ignore
  let bidders ← Node.field (find "bidders") Node.vendorMap? ∅
  return { enabled, appliesByDefault, purposes, location, treatment, bidders }

theorem ofNode?_table_iff {entries : List (String × Node)} {policy : Policy} :
    ofNode? (.table entries) = some policy ↔
      Node.field (entries.lookup "enabled") Node.bool? true = some policy.enabled ∧
      Node.field (entries.lookup "default_value") Node.bool? true = some policy.appliesByDefault ∧
      Node.field (entries.lookup "purposes") purposePolicies? (.ofFn fun _ => {}) =
        some policy.purposes ∧
      Node.field (entries.lookup "special_features") locationPolicy? {} = some policy.location ∧
      Node.field (entries.lookup "purpose_one_treatment_interpretation")
        (fun n => n.variant?.bind TreatmentRule.ofKey?) .ignore = some policy.treatment ∧
      Node.field (entries.lookup "bidders") Node.vendorMap? ∅ = some policy.bidders := by
  simp only [ofNode?, Node.fields?, Option.bind_eq_bind, Option.bind_some, Option.bind_eq_some_iff,
    Option.pure_def, Option.some.injEq]
  constructor
  · rintro ⟨_, henabled, _, happlies, _, hpurposes, _, hlocation, _, htreatment, _, hbidders, rfl⟩
    exact ⟨henabled, happlies, hpurposes, hlocation, htreatment, hbidders⟩
  · rintro ⟨henabled, happlies, hpurposes, hlocation, htreatment, hbidders⟩
    exact ⟨_, henabled, _, happlies, _, hpurposes, _, hlocation, _, htreatment, _, hbidders, rfl⟩

/-- The policy of a settings document, where it stands under the key `gdpr`. -/
def ofDocument? (document : Node) : Option Policy :=
  Node.field (document.get? "gdpr") ofNode? {}

end Policy

end ConsentGate
