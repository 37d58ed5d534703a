import ConsentGate.Node.Layer
import ConsentGate.Proofs.Settings.Names
import ConsentGate.Settings.Decoding
import Mathlib.Data.List.Nodup

/-!
# Laying a text over a field

A text that is laid over a settings document at the place of one field changes this field, and what
the rest of the document is read as stays. This is shown from the field upwards: a record that reads
one of its fields from the node under a key carries a change of this node on to the field.

Results:

* `Node.Carries.field`: a record carries a change of the node under a key on to a field.
* `Node.ReadsRecord.readsField`: each field of a record is read apart from the others.
* `Node.TablesTo.layText`: containers stay tables when a text is laid elsewhere.
* `Setting.get_put_self`, `Setting.get_put_of_ne`: a value is put into its own setting only.
* `Setting.carries`: a text that is laid at the place of a setting puts its value there.
-/

namespace ConsentGate

namespace Node

/-! ## Places in a document -/

/-- A document with a text laid at the place below some keys. -/
def layText (keys : List String) (text : String) (node : Node) : Node :=
  node.setAt (keys.map .key) fun old => old.overlay (.text text)

/-- Whatever stands on the way to the place below some keys is a table. -/
def TablesTo : List String → Option Node → Prop
  | [], _ => True
  | key :: keys, node? =>
    (∀ node ∈ node?, node.IsTable) ∧ TablesTo keys (node?.bind fun node => node.get? key)

instance TablesTo.decidable : (keys : List String) → (node? : Option Node) →
    Decidable (TablesTo keys node?)
  | [], _ => .isTrue trivial
  | key :: keys, node? =>
    haveI := TablesTo.decidable keys (node?.bind fun node => node.get? key)
    inferInstanceAs (Decidable (_ ∧ _))

theorem layText_nil (text : String) (node : Node) : node.layText [] text = .text text := rfl

theorem layText_cons (key : String) (keys : List String) (text : String) (node : Node) :
    node.layText (key :: keys) text =
      .table (upsert key (fun found => (found.getD .nil).layText keys text) node.entries) := rfl

theorem lookup_entries_getD (node? : Option Node) (key : String) :
    (node?.getD .nil).entries.lookup key = node?.bind fun node => node.get? key := by
  cases node? <;> rfl

theorem distinctKeys_layText (keys : List String) (text : String) {node : Node}
    (h : node.DistinctKeys) : (node.layText keys text).DistinctKeys :=
  distinctKeys_setAt (fun _ hold => distinctKeys_overlay hold _) _ h

/-- Containers stay tables when a text is laid at a place that does not lead through them. -/
theorem TablesTo.layText {keys keys' : List String} {node? : Option Node} (text : String)
    (hplace : keys <+: keys' → keys = keys') (h : TablesTo keys' node?) :
    TablesTo keys' (some ((node?.getD .nil).layText keys text)) := by
  induction keys generalizing keys' node? with
  | nil =>
    obtain rfl := hplace List.nil_prefix
    trivial
  | cons key keys ih =>
    cases keys' with
    | nil => trivial
    | cons key' keys' =>
      rw [layText_cons]
      refine ⟨fun node hnode => ⟨_, (Option.some.inj hnode).symm⟩, ?_⟩
      have hbelow := h.2
      rw [← lookup_entries_getD] at hbelow
      rw [Option.bind_some, get?, entries, lookup_upsert]
      by_cases hkey : key' = key
      · subst hkey
        rw [if_pos rfl]
        have hrest (hstart : keys <+: keys') : keys = keys' :=
          (List.cons.inj (hplace (List.cons_prefix_cons.2 ⟨rfl, hstart⟩))).2
        exact ih hrest hbelow
      · rw [if_neg hkey]
        exact hbelow

/-! ## Readers -/

section Readers

variable {α β : Type} {read? : Node → Option α} {default : α} {key : String} {keys : List String}
  {text : String} {part? : Node → Option β} {partDefault : β} {get : α → β} {put : β → α → α}

/-- A text that is laid below some keys changes what a node, or nothing, is read as. -/
def Carries (read? : Node → Option α) (default : α) (keys : List String) (text : String)
    (change : α → α) : Prop :=
  ∀ node? : Option Node, (∀ node ∈ node?, node.DistinctKeys) → TablesTo keys node? →
    ∀ a, field node? read? default = some a →
      read? ((node?.getD .nil).layText keys text) = some (change a)

/-- The reader of a record reads a field from the node under a key, and the other fields from
elsewhere. -/
structure ReadsField (read? : Node → Option α) (default : α) (key : String)
    (part? : Node → Option β) (partDefault : β) (get : α → β) (put : β → α → α) : Prop where
  empty : read? (.table []) = some default
  reads : ∀ entries a, read? (.table entries) = some a →
    field (entries.lookup key) part? partDefault = some (get a)
  writes : ∀ entries a node b, read? (.table entries) = some a → part? node = some b →
    read? (.table (upsert key (fun _ => node) entries)) = some (put b a)

/-- A record that may be missing is read from some entries, which are none if it is. -/
theorem exists_entries {node? : Option Node} {a : α} (hempty : read? (.table []) = some default)
    (hdistinct : ∀ node ∈ node?, node.DistinctKeys)
    (htable : ∀ node ∈ node?, node.IsTable)
    (ha : field node? read? default = some a) :
    ∃ entries, (node?.getD .nil).entries = entries ∧ (table entries).DistinctKeys ∧
      read? (.table entries) = some a := by
  cases node? with
  | none => exact ⟨[], rfl, ⟨List.nodup_nil, trivial⟩, hempty.trans ha⟩
  | some node =>
    obtain ⟨entries, rfl⟩ := htable node rfl
    exact ⟨entries, rfl, hdistinct _ rfl, ha⟩

theorem Carries.leaf {v : α} (h : read? (.text text) = some v) :
    Carries read? default [] text fun _ => v := by
  intro node? _ _ a _
  rw [layText_nil, h]

/-- A record carries a change of the node under a key on to the field. -/
theorem Carries.field {change : β → β}
    (h : ReadsField read? default key part? partDefault get put)
    (hpart : Carries part? partDefault keys text change) :
    Carries read? default (key :: keys) text fun a => put (change (get a)) a := by
  intro node? hdistinct htables a ha
  obtain ⟨entries, hentries, hkeys, hread⟩ := exists_entries h.empty hdistinct htables.1 ha
  have hbelow := htables.2
  rw [← lookup_entries_getD, hentries] at hbelow
  have hchild (node : Node) (hnode : node ∈ entries.lookup key) : node.DistinctKeys := by
    have hget : (table entries).get? key = some node := hnode
    exact hkeys.get? hget
  have hchanged := hpart (entries.lookup key) hchild hbelow (get a) (h.reads entries a hread)
  rw [layText_cons, hentries, upsert_eq_of_lookup]
  exact h.writes entries a _ _ hread hchanged

/-- A table of vendor ids has the vendor id of a text under the key where the text is laid. -/
theorem carries_vendorMap {code : String} {v : VendorId}
    (h : vendor? (.text text) = some v) :
    Carries vendorMap? ∅ [code] text fun m => m.insert code v := by
  intro node? hdistinct htables m hm
  have hempty : vendorMap? (.table []) = some ∅ := rfl
  obtain ⟨entries, hentries, hkeys, hread⟩ := exists_entries hempty hdistinct htables.1 hm
  have hcodes := (vendorMap?_table_iff hkeys.1).1 hread
  rw [layText_cons, hentries, vendorMap?_table_iff (nodup_upsert hkeys.1)]
  intro other
  rw [lookup_upsert, OrderedMap.find?_insert]
  by_cases hother : other = code
  · subst hother
    rw [if_pos rfl, if_pos rfl, Option.map_some, layText_nil, h, Option.map_some]
  · rw [if_neg hother, if_neg fun heq => hother heq.symm]
    exact hcodes other

/-! ## Records -/

/-- A field of a record: its key, and which nodes stand for what a record has there. -/
structure RecordField (α : Type) where
  key : String
  Holds : Option Node → α → Prop

/-- The field that is read from the node under a key. -/
def RecordField.of (key : String) (part? : Node → Option β) (partDefault : β) (get : α → β) :
    RecordField α where
  key := key
  Holds node? a := field node? part? partDefault = some (get a)

/-- The reader of a record reads some fields, each from the node under its own key. -/
structure ReadsRecord (read? : Node → Option α) (default : α) (fields : List (RecordField α)) :
    Prop where
  nodup : (fields.map RecordField.key).Nodup
  empty : read? (.table []) = some default
  reads : ∀ entries a, read? (.table entries) = some a ↔
    ∀ f ∈ fields, f.Holds (entries.lookup f.key) a

/-- Each field of a record is read apart from the others. -/
theorem ReadsRecord.readsField {fields : List (RecordField α)}
    (h : ReadsRecord read? default fields) (hfield : .of key part? partDefault get ∈ fields)
    (hget : ∀ b a, get (put b a) = b)
    (hothers : ∀ f ∈ fields, f.key ≠ key → ∀ node? b a, f.Holds node? a →
      f.Holds node? (put b a)) :
    ReadsField read? default key part? partDefault get put where
  empty := h.empty
  reads entries a ha := (h.reads entries a).1 ha _ hfield
  writes entries a node b ha hb := by
    rw [h.reads] at ha ⊢
    intro f hf
    rw [lookup_upsert]
    by_cases hkey : f.key = key
    · have hsame : f = .of key part? partDefault get :=
        List.inj_on_of_nodup_map h.nodup hf hfield hkey
      rw [if_pos hkey, hsame]
      exact hb.trans (congrArg some (hget b a).symm)
    · rw [if_neg hkey]
      exact hothers f hf hkey _ b a (ha f hf)

end Readers

end Node

open Node (ReadsField ReadsRecord RecordField)

namespace PurposePolicy

theorem readsRecord : ReadsRecord ofNode? {}
    [.of "enforce_purpose" (fun n => n.variant?.bind Strictness.ofKey?) .full strictness,
      .of "enforce_vendors" Node.bool? true checksVendors,
      .of "vendor_exceptions" Node.textSet? ∅ exceptions] where
  nodup := by decide
  empty := ofNode?_table_iff.2 ⟨rfl, rfl, rfl⟩
  reads entries policy := by
    rw [ofNode?_table_iff]
    simp [RecordField.of]

theorem readsField_strictness :
    ReadsField ofNode? {} "enforce_purpose" (fun n => n.variant?.bind Strictness.ofKey?) .full
      strictness (fun x policy => { policy with strictness := x }) :=
  readsRecord.readsField (by simp) (fun _ _ => rfl) (by simp [RecordField.of])

theorem readsField_checksVendors :
    ReadsField ofNode? {} "enforce_vendors" Node.bool? true
      checksVendors (fun x policy => { policy with checksVendors := x }) :=
  readsRecord.readsField (by simp) (fun _ _ => rfl) (by simp [RecordField.of])

end PurposePolicy

namespace FeaturePolicy

theorem readsRecord : ReadsRecord ofNode? {}
    [.of "enforce" Node.bool? true enforced,
      .of "vendor_exceptions" Node.textSet? ∅ exceptions] where
  nodup := by decide
  empty := ofNode?_table_iff.2 ⟨rfl, rfl⟩
  reads entries policy := by
    rw [ofNode?_table_iff]
    simp [RecordField.of]

theorem readsField_enforced :
    ReadsField ofNode? {} "enforce" Node.bool? true
      enforced (fun x policy => { policy with enforced := x }) :=
  readsRecord.readsField (by simp) (fun _ _ => rfl) (by simp [RecordField.of])

end FeaturePolicy

theorem readsRecord_purposes : ReadsRecord purposePolicies? (.ofFn fun _ => {})
    (Purpose.all.map fun p =>
      .of p.key PurposePolicy.ofNode? {} fun policies => policies.get p) where
  nodup := by decide
  empty := purposePolicies?_table_iff.2 fun p => by
    rw [PerPurpose.get_ofFn]
    rfl
  reads entries policies := by
    rw [purposePolicies?_table_iff, List.forall_mem_map]
    exact ⟨fun h p _ => h p, fun h p => h p p.mem_all⟩

theorem readsField_purpose (p : Purpose) :
    ReadsField purposePolicies? (.ofFn fun _ => {}) p.key PurposePolicy.ofNode? {}
      (fun policies => policies.get p) (fun x policies => policies.set p x) := by
  apply readsRecord_purposes.readsField
  · exact List.mem_map_of_mem p.mem_all
  · intro x policies
    rw [PerPurpose.get_set, if_pos rfl]
  · rw [List.forall_mem_map]
    intro q _ hq node? x policies h
    have hne : q ≠ p := fun heq => hq (congrArg Purpose.key heq)
    have hkept : (policies.set p x).get q = policies.get q := by rw [PerPurpose.get_set, if_neg hne]
    exact h.trans (congrArg some hkept.symm)

theorem readsRecord_location : ReadsRecord locationPolicy? {}
    [.of "sf1" FeaturePolicy.ofNode? {} id] where
  nodup := by decide
  empty := rfl
  reads entries policy := by
    rw [locationPolicy?_table_iff]
    simp [RecordField.of]

theorem readsField_location :
    ReadsField locationPolicy? {} "sf1" FeaturePolicy.ofNode? {} id (fun x _ => x) :=
  readsRecord_location.readsField (by simp) (fun _ _ => rfl) (by simp [RecordField.of])

namespace Policy

theorem readsRecord : ReadsRecord ofNode? {}
    [.of "enabled" Node.bool? true enabled, .of "default_value" Node.bool? true appliesByDefault,
      .of "purposes" purposePolicies? (.ofFn fun _ => {}) purposes,
      .of "special_features" locationPolicy? {} location,
      .of "purpose_one_treatment_interpretation" (fun n => n.variant?.bind TreatmentRule.ofKey?)
        .ignore treatment,
      .of "bidders" Node.vendorMap? ∅ bidders] where
  nodup := by decide
  empty := ofNode?_table_iff.2 ⟨rfl, rfl, rfl, rfl, rfl, rfl⟩
  reads entries policy := by
    rw [ofNode?_table_iff]
    simp [RecordField.of]

theorem readsField_enabled :
    ReadsField ofNode? {} "enabled" Node.bool? true
      enabled (fun x policy => { policy with enabled := x }) :=
  readsRecord.readsField (by simp) (fun _ _ => rfl) (by simp [RecordField.of])

theorem readsField_appliesByDefault :
    ReadsField ofNode? {} "default_value" Node.bool? true
      appliesByDefault (fun x policy => { policy with appliesByDefault := x }) :=
  readsRecord.readsField (by simp) (fun _ _ => rfl) (by simp [RecordField.of])

theorem readsField_purposes :
    ReadsField ofNode? {} "purposes" purposePolicies? (.ofFn fun _ => {})
      purposes (fun x policy => { policy with purposes := x }) :=
  readsRecord.readsField (by simp) (fun _ _ => rfl) (by simp [RecordField.of])

theorem readsField_location :
    ReadsField ofNode? {} "special_features" locationPolicy? {}
      location (fun x policy => { policy with location := x }) :=
  readsRecord.readsField (by simp) (fun _ _ => rfl) (by simp [RecordField.of])

theorem readsField_treatment :
    ReadsField ofNode? {} "purpose_one_treatment_interpretation"
      (fun n => n.variant?.bind TreatmentRule.ofKey?) .ignore
      treatment (fun x policy => { policy with treatment := x }) :=
  readsRecord.readsField (by simp) (fun _ _ => rfl) (by simp [RecordField.of])

theorem readsField_bidders :
    ReadsField ofNode? {} "bidders" Node.vendorMap? ∅
      bidders (fun x policy => { policy with bidders := x }) :=
  readsRecord.readsField (by simp) (fun _ _ => rfl) (by simp [RecordField.of])

theorem readsRecord_document : ReadsRecord ofDocument? {} [.of "gdpr" ofNode? {} id] where
  nodup := by decide
  empty := rfl
  reads entries policy := by
    rw [ofDocument?]
    simp [RecordField.of, Node.get?, Node.entries]

theorem readsField_gdpr :
    ReadsField ofDocument? {} "gdpr" ofNode? {} id (fun policy _ => policy) :=
  readsRecord_document.readsField (by simp) (fun _ _ => rfl) (by simp [RecordField.of])

end Policy

/-! ## Settings -/

namespace Setting

/-- What kind of value a setting has. -/
def Value : Setting → Type
  | enabled | appliesByDefault | checksVendors _ | locationEnforced => Bool
  | treatment => TreatmentRule
  | strictness _ => Strictness
  | bidder _ => VendorId

instance : (s : Setting) → DecidableEq s.Value
  | enabled | appliesByDefault | checksVendors _ | locationEnforced =>
    inferInstanceAs (DecidableEq Bool)
  | treatment => inferInstanceAs (DecidableEq TreatmentRule)
  | strictness _ => inferInstanceAs (DecidableEq Strictness)
  | bidder _ => inferInstanceAs (DecidableEq VendorId)

/-- The value of a setting in a text. -/
def value? : (s : Setting) → String → Option s.Value
  | enabled, text | appliesByDefault, text | checksVendors _, text | locationEnforced, text =>
    (Node.text text).bool?
  | treatment, text => (Node.text text).variant?.bind TreatmentRule.ofKey?
  | strictness _, text => (Node.text text).variant?.bind Strictness.ofKey?
  | bidder _, text => (Node.text text).vendor?

/-- The value of a setting in a policy; only a bidder code may have none. -/
def get : (s : Setting) → Policy → Option s.Value
  | enabled, policy => some policy.enabled
  | appliesByDefault, policy => some policy.appliesByDefault
  | treatment, policy => some policy.treatment
  | strictness p, policy => some (policy.purposes.get p).strictness
  | checksVendors p, policy => some (policy.purposes.get p).checksVendors
  | locationEnforced, policy => some policy.location.enforced
  | bidder code, policy => policy.bidders.find? code

/-- A policy with the policy of one purpose replaced. -/
def putPurpose (p : Purpose) (purposePolicy : PurposePolicy) (policy : Policy) : Policy :=
  { policy with purposes := policy.purposes.set p purposePolicy }

/-- A policy with the value of a setting replaced. -/
def put : (s : Setting) → s.Value → Policy → Policy
  | enabled, x, policy => { policy with enabled := x }
  | appliesByDefault, x, policy => { policy with appliesByDefault := x }
  | treatment, x, policy => { policy with treatment := x }
  | strictness p, x, policy => putPurpose p { policy.purposes.get p with strictness := x } policy
  | checksVendors p, x, policy =>
    putPurpose p { policy.purposes.get p with checksVendors := x } policy
  | locationEnforced, x, policy =>
    { policy with location := { policy.location with enforced := x } }
  | bidder code, x, policy => { policy with bidders := policy.bidders.insert code x }

theorem get_putPurpose (p q : Purpose) (purposePolicy : PurposePolicy) (policy : Policy) :
    (putPurpose p purposePolicy policy).purposes.get q =
      if q = p then purposePolicy else policy.purposes.get q := PerPurpose.get_set ..

/-- What is the same in the old and the new policy of a purpose is the same for all purposes. -/
theorem apply_get_putPurpose {β : Type} (field : PurposePolicy → β) {p : Purpose}
    {purposePolicy : PurposePolicy} {policy : Policy}
    (h : field purposePolicy = field (policy.purposes.get p)) (q : Purpose) :
    field ((putPurpose p purposePolicy policy).purposes.get q) =
      field (policy.purposes.get q) := by
  rw [get_putPurpose]
  split
  · rename_i hq
    rw [h, hq]
  · rfl

theorem get_put_self (s : Setting) (x : s.Value) (policy : Policy) :
    s.get (s.put x policy) = some x := by
  cases s with
  | enabled | appliesByDefault | treatment | locationEnforced => rfl
  | strictness p | checksVendors p => rw [get, put, get_putPurpose, if_pos rfl]
  | bidder code => exact OrderedMap.find?_insert.trans (if_pos rfl)

/-- A value is put into its own setting only. -/
theorem get_put_of_ne {s t : Setting} (h : t ≠ s) (x : s.Value) (policy : Policy) :
    t.get (s.put x policy) = t.get policy := by
  cases s with
  | enabled | appliesByDefault | treatment | locationEnforced =>
    cases t <;> first | rfl | exact absurd rfl h
  | strictness p =>
    cases t with
    | strictness q =>
      have hq : q ≠ p := fun heq => h (congrArg strictness heq)
      rw [get, put, get_putPurpose, if_neg hq, get]
    | checksVendors q =>
      rw [get, put, apply_get_putPurpose PurposePolicy.checksVendors, get]
      rfl
    | _ => rfl
  | checksVendors p =>
    cases t with
    | checksVendors q =>
      have hq : q ≠ p := fun heq => h (congrArg checksVendors heq)
      rw [get, put, get_putPurpose, if_neg hq, get]
    | strictness q =>
      rw [get, put, apply_get_putPurpose PurposePolicy.strictness, get]
      rfl
    | _ => rfl
  | bidder code =>
    cases t with
    | bidder other =>
      have hother : code ≠ other := fun heq => h (congrArg bidder heq.symm)
      exact OrderedMap.find?_insert.trans (if_neg hother)
    | _ => rfl

/-- No set of exceptions belongs to a setting. -/
theorem exceptions_put (s : Setting) (x : s.Value) (policy : Policy) :
    (∀ p, ((s.put x policy).purposes.get p).exceptions = (policy.purposes.get p).exceptions) ∧
      (s.put x policy).location.exceptions = policy.location.exceptions := by
  cases s with
  | strictness p | checksVendors p => exact ⟨apply_get_putPurpose PurposePolicy.exceptions rfl, rfl⟩
  | enabled | appliesByDefault | treatment | locationEnforced | bidder _ =>
    exact ⟨fun _ => rfl, rfl⟩

/-- A policy is determined by its settings and its exceptions. -/
theorem policy_ext {A B : Policy} (hget : ∀ s : Setting, s.get A = s.get B)
    (hpurposes : ∀ p, (A.purposes.get p).exceptions = (B.purposes.get p).exceptions)
    (hlocation : A.location.exceptions = B.location.exceptions) : A = B := by
  have henabled : A.enabled = B.enabled := Option.some.inj (hget .enabled)
  have happlies : A.appliesByDefault = B.appliesByDefault :=
    Option.some.inj (hget .appliesByDefault)
  have htreatment : A.treatment = B.treatment := Option.some.inj (hget .treatment)
  have hbidders : A.bidders = B.bidders := OrderedMap.ext fun code => hget (.bidder code)
  have hsame : A.purposes = B.purposes := PerPurpose.ext fun p =>
    PurposePolicy.ext (Option.some.inj (hget (.strictness p)))
      (Option.some.inj (hget (.checksVendors p))) (hpurposes p)
  have hfeature : A.location = B.location :=
    FeaturePolicy.ext (Option.some.inj (hget .locationEnforced)) hlocation
  exact Policy.ext henabled happlies hsame hfeature htreatment hbidders

/-- A text at the place of a setting leaves the ways to all settings open. -/
theorem tablesTo_layText (s : Setting) {t : Setting} {document : Node} (text : String)
    (h : Node.TablesTo t.keys (some document)) :
    Node.TablesTo t.keys (some (document.layText s.keys text)) := by
  apply h.layText text
  intro hstart
  rw [eq_of_keys_below hstart]

/-- A text that is laid at the place of a setting puts its value there. -/
theorem carries {s : Setting} {text : String} {x : s.Value} (h : s.value? text = some x) :
    Node.Carries Policy.ofDocument? {} s.keys text (s.put x) := by
  cases s with
  | enabled => exact .field Policy.readsField_gdpr (.field Policy.readsField_enabled (.leaf h))
  | appliesByDefault =>
    exact .field Policy.readsField_gdpr (.field Policy.readsField_appliesByDefault (.leaf h))
  | treatment =>
    exact .field Policy.readsField_gdpr (.field Policy.readsField_treatment (.leaf h))
  | strictness p =>
    exact .field Policy.readsField_gdpr (.field Policy.readsField_purposes
      (.field (readsField_purpose p) (.field PurposePolicy.readsField_strictness (.leaf h))))
  | checksVendors p =>
    exact .field Policy.readsField_gdpr (.field Policy.readsField_purposes
      (.field (readsField_purpose p) (.field PurposePolicy.readsField_checksVendors (.leaf h))))
  | locationEnforced =>
    exact .field Policy.readsField_gdpr (.field Policy.readsField_location
      (.field readsField_location (.field FeaturePolicy.readsField_enforced (.leaf h))))
  | bidder code =>
    exact .field Policy.readsField_gdpr (.field Policy.readsField_bidders
      (Node.carries_vendorMap h))

end Setting

end ConsentGate
