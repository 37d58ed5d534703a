import ConsentGate.Proofs.Settings.Fields
import ConsentGate.Settings.Loading
import Mathlib.Control.Monad.Basic

/-!
# Overriding settings

Variables that override scalar settings change these settings and nothing else, in whatever order
they are applied. Each variable is laid over the document as a text at the place of its setting,
which puts its value there; distinct variables have distinct settings, so that no value is replaced
by a later one. The document must not have anything but a table on the way to the place, where a
table would take its place together with what the settings read from it.

Results:

* `Variable.Sets.ofDocument?`: what laying one variable over a document does.
* `Overridden.layAll`: the same for variables in a row.
* `Overridden.unique`, `Overridden.valid`: what is overridden is determined, and stays valid.
* `Settings.load_overridden`: what is loaded in an environment.
-/

namespace ConsentGate

/-! ## One variable -/

/-- A variable sets a setting to a value. -/
structure Variable.Sets (v : Variable) (s : Setting) (x : s.Value) : Prop where
  names : v.Names s
  value : s.value? v.value = some x

namespace Variable

variable {v : Variable} {s : Setting} {x : s.Value}

/-- A variable sets its setting to one value. -/
theorem Sets.unique {y : s.Value} (h : v.Sets s x) (h' : v.Sets s y) : y = x :=
  Option.some.inj (h'.value.symm.trans h.value)

/-- The first of some variables is laid over a document as a text, at the place of its setting. -/
theorem Sets.layAll (h : v.Sets s x) (document : Node) (vs : List Variable) :
    document.layAll (overrides (v :: vs)) =
      (document.layText s.keys v.value).layAll (overrides vs) := by
  obtain ⟨name, hname, hpath⟩ := h.names.path
  have hsetting : v.setting? = some (name, .text v.value) := by
    rw [setting?, hname, Option.map_some]
  have hlay : document.lay name (.text v.value) = document.layText s.keys v.value := by
    rw [Node.lay, hpath, Option.getD_some, Node.layText]
  rw [overrides, List.filterMap_cons_some hsetting, ← hlay]
  rfl

/-- A document with the text of a variable at the place of its setting is decoded with the value of
the variable in it. -/
theorem Sets.ofDocument? (h : v.Sets s x) {document : Node} {policy : Policy}
    (hdistinct : document.DistinctKeys) (htables : Node.TablesTo s.keys (some document))
    (hpolicy : Policy.ofDocument? document = some policy) :
    Policy.ofDocument? (document.layText s.keys v.value) = some (s.put x policy) := by
  have hdocument (node : Node) (hnode : node ∈ some document) : node.DistinctKeys := by
    cases hnode
    exact hdistinct
  exact Setting.carries h.value (some document) hdocument htables policy hpolicy

end Variable

/-! ## Variables in a row -/

/-- What some variables make of a policy: each puts its value into its setting, and whatever none of
them sets stays as it was. -/
structure Overridden (vs : List Variable) (policy result : Policy) : Prop where
  set : ∀ v ∈ vs, ∀ (s : Setting) (x : s.Value), v.Sets s x → s.get result = some x
  kept : ∀ s : Setting, (∀ v ∈ vs, ∀ x : s.Value, ¬ v.Sets s x) →
    s.get result = s.get policy
  purposeExceptions : ∀ p,
    (result.purposes.get p).exceptions = (policy.purposes.get p).exceptions
  locationExceptions : result.location.exceptions = policy.location.exceptions

namespace Overridden

variable {vs others : List Variable} {policy result result' : Policy}

theorem refl (policy : Policy) : Overridden [] policy policy where
  set := nofun
  kept _ _ := rfl
  purposeExceptions _ := rfl
  locationExceptions := rfl

/-- The order of the variables does not matter. -/
theorem of_perm (h : Overridden vs policy result) (hperm : others.Perm vs) :
    Overridden others policy result where
  set v hv := h.set v (hperm.mem_iff.1 hv)
  kept s hs := h.kept s fun v hv => hs v (hperm.mem_iff.2 hv)
  purposeExceptions := h.purposeExceptions
  locationExceptions := h.locationExceptions

/-- What is overridden is determined. -/
theorem unique (h : Overridden vs policy result)
    (h' : Overridden vs policy result') : result = result' := by
  apply Setting.policy_ext
  · intro s
    by_cases hs : ∃ v ∈ vs, ∃ x : s.Value, v.Sets s x
    · obtain ⟨v, hv, x, hx⟩ := hs
      rw [h.set v hv s x hx, h'.set v hv s x hx]
    · have hnone : ∀ v ∈ vs, ∀ x : s.Value, ¬ v.Sets s x :=
        fun v hv x hx => hs ⟨v, hv, x, hx⟩
      rw [h.kept s hnone, h'.kept s hnone]
  · intro p
    rw [h.purposeExceptions, h'.purposeExceptions]
  · rw [h.locationExceptions, h'.locationExceptions]

/-- A bidder code that a variable can name is not blank, so that a valid policy stays valid. -/
theorem valid (h : Overridden vs policy result) (hvalid : policy.Valid) :
    result.Valid := by
  intro place code hcode
  cases place with
  | purpose p =>
    rw [Policy.codes, h.purposeExceptions] at hcode
    exact hvalid (.purpose p) code hcode
  | location =>
    rw [Policy.codes, h.locationExceptions] at hcode
    exact hvalid .location code hcode
  | bidders =>
    obtain ⟨entry, hentry, rfl⟩ := List.mem_map.1 hcode
    have hfound : result.bidders.find? entry.1 = some entry.2 :=
      OrderedMap.find?_eq_some_iff.2 hentry
    by_cases hset : ∃ v ∈ vs, ∃ x, v.Sets (.bidder entry.1) x
    · obtain ⟨v, -, x, hx⟩ := hset
      exact Setting.not_isBlank_of_nameable hx.names.nameable
    · have hkept : result.bidders.find? entry.1 = policy.bidders.find? entry.1 :=
        h.kept (.bidder entry.1) fun v hv x hx => hset ⟨v, hv, x, hx⟩
      rw [hkept] at hfound
      have hold : entry ∈ policy.bidders.entries := OrderedMap.find?_eq_some_iff.1 hfound
      exact hvalid .bidders entry.1 (List.mem_map_of_mem hold)

/-- A variable in front of others puts its value first. -/
theorem cons {v : Variable} {s : Setting} {x : s.Value} (hx : v.Sets s x)
    (hfresh : ∀ w ∈ vs, w.lowerName ≠ v.lowerName)
    (h : Overridden vs (s.put x policy) result) :
    Overridden (v :: vs) policy result := by
  have hother {w : Variable} (hw : w ∈ vs) (y : s.Value) : ¬ w.Sets s y := fun hy =>
    hfresh w hw (hy.names.lowerName.trans hx.names.lowerName.symm)
  have hexceptions := s.exceptions_put x policy
  refine ⟨fun w hw t y hy => ?_, fun t ht => ?_, fun p => ?_, ?_⟩
  · rcases List.mem_cons.1 hw with rfl | hw
    · obtain rfl := hy.names.unique hx.names
      obtain rfl := hx.unique hy
      rw [h.kept t fun w hw => hother hw, Setting.get_put_self]
    · exact h.set w hw t y hy
  · have hne : t ≠ s := by
      rintro rfl
      exact ht v List.mem_cons_self x hx
    rw [h.kept t fun w hw => ht w (List.mem_cons_of_mem _ hw), Setting.get_put_of_ne hne]
  · rw [h.purposeExceptions, hexceptions.1]
  · rw [h.locationExceptions, hexceptions.2]

/-- Variables that are laid over a document one after the other override their settings. -/
theorem layAll {document : Node} (hdistinct : document.DistinctKeys)
    (hpolicy : Policy.ofDocument? document = some policy)
    (hsets : ∀ v ∈ vs, ∃ (s : Setting) (x : s.Value), v.Sets s x ∧
      Node.TablesTo s.keys (some document))
    (hnames : (vs.map Variable.lowerName).Nodup) :
    ∃ result, Policy.ofDocument? (document.layAll (overrides vs)) = some result ∧
      Overridden vs policy result := by
  induction vs generalizing document policy with
  | nil => exact ⟨policy, hpolicy, .refl policy⟩
  | cons v vs ih =>
    rw [List.map_cons, List.nodup_cons] at hnames
    obtain ⟨s, x, hx, htables⟩ := hsets v List.mem_cons_self
    have hkeys := Node.distinctKeys_layText s.keys v.value hdistinct
    have hchanged := hx.ofDocument? hdistinct htables hpolicy
    have hrest (w : Variable) (hw : w ∈ vs) : ∃ (t : Setting) (y : t.Value), w.Sets t y ∧
        Node.TablesTo t.keys (some (document.layText s.keys v.value)) := by
      obtain ⟨t, y, hy, ht⟩ := hsets w (List.mem_cons_of_mem _ hw)
      exact ⟨t, y, hy, Setting.tablesTo_layText s v.value ht⟩
    obtain ⟨result, hresult, hoverridden⟩ := ih hkeys hchanged hrest hnames.2
    have hfresh (w : Variable) (hw : w ∈ vs) : w.lowerName ≠ v.lowerName := fun heq =>
      hnames.1 (heq ▸ List.mem_map_of_mem hw)
    refine ⟨result, ?_, hoverridden.cons hx hfresh⟩
    rw [hx.layAll, hresult]

end Overridden

/-! ## Loading -/

namespace Settings

/-- The document of a text has its keys apart. -/
theorem distinctKeys_document {text : String} {environment : List Variable} {document : Node}
    (h : document? text environment = some document) : document.DistinctKeys := by
  obtain ⟨written, -, rfl⟩ := Option.map_eq_some_iff.1 h
  apply Node.distinctKeys_layAll
  exact Node.distinctKeys_layAll _ ⟨List.nodup_nil, trivial⟩

/-- Only variables that override something matter. -/
theorem overrides_filter (environment : List Variable) :
    overrides (environment.filter fun v => v.settingName?.isSome) = overrides environment := by
  rw [overrides, overrides, List.filterMap_filter]
  congr 1
  funext v
  rw [Variable.setting?]
  cases v.settingName? <;> rfl

/-- Where a text is loaded as a policy, variables of distinct names that each set a setting, with
nothing but tables on the way to it, are loaded over the text whatever their order. The result has
the values of the variables in their settings, and agrees with the policy everywhere else. -/
theorem load_overridden {text : String} {policy : Policy} {vs : List Variable}
    (hload : load text [] = .ok policy)
    (hsets : ∀ v ∈ vs, ∃ (s : Setting) (x : s.Value), v.Sets s x ∧
      Node.TablesTo s.keys (document? text []))
    (hnames : (vs.map Variable.lowerName).Nodup) :
    ∃ result, Overridden vs policy result ∧
      ∀ environment : List Variable,
        (environment.filter fun v => v.settingName?.isSome).Perm vs →
          load text environment = .ok result := by
  obtain ⟨document, hdocument, hpolicy, hvalid⟩ := load_eq_ok_iff.1 hload
  rw [hdocument] at hsets
  have hkeys := distinctKeys_document hdocument
  obtain ⟨result, -, hresult⟩ := Overridden.layAll hkeys hpolicy hsets hnames
  refine ⟨result, hresult, fun environment hperm => ?_⟩
  have hsets' (v : Variable) (hv : v ∈ environment.filter fun v => v.settingName?.isSome) :=
    hsets v (hperm.mem_iff.1 hv)
  have hnames' := (hperm.map Variable.lowerName).nodup_iff.2 hnames
  obtain ⟨result', hdecoded, hresult'⟩ := Overridden.layAll hkeys hpolicy hsets' hnames'
  obtain rfl : result' = result := (hresult'.of_perm hperm.symm).unique hresult
  rw [overrides_filter] at hdecoded
  refine load_eq_ok_iff.2 ⟨_, ?_, hdecoded, hresult.valid hvalid⟩
  rw [document?_eq_map, hdocument, Option.map_some]

/-- Settings with exceptions from a purpose and one bidder. -/
def plainText : String :=
  "[gdpr.purposes.p2]\nvendor_exceptions = [\"house\"]\n[gdpr.bidders]\nrubicon = 52\n"

/-- Three overriding variables; the bidder's stands at a place that the settings leave out. -/
def threeVariables : List Variable :=
  [⟨"TCF_BROKER__GDPR__PURPOSES__P2__ENFORCE_PURPOSE", "basic"⟩,
    ⟨"tcf_broker__gdpr__bidders__appnexus", "+32"⟩, ⟨"TCF_BROKER__gdpr__ENABLED", "Off"⟩]

/-- Three variables give the same settings in two orders, next to a variable that overrides
nothing. -/
theorem load_overridden_threeVariables :
    ∃ policy result, load plainText [] = .ok policy ∧ Overridden threeVariables policy result ∧
      load plainText threeVariables = .ok result ∧
      load plainText (⟨"HOME", "/root"⟩ :: threeVariables.reverse) = .ok result ∧
      result =
        { enabled := false
          purposes := PerPurpose.set (.ofFn fun _ => {}) .two
            { strictness := .basic, exceptions := .ofList ["house"] }
          bidders := .ofList [("appnexus", 32), ("rubicon", 52)] } := by
  have hload : load plainText [] = .ok
      { purposes := PerPurpose.set (.ofFn fun _ => {}) .two { exceptions := .ofList ["house"] }
        bidders := .ofList [("rubicon", 52)] } := by
    decide +kernel
  have hsets : ∀ v ∈ threeVariables, ∃ (s : Setting) (x : s.Value), v.Sets s x ∧
      Node.TablesTo s.keys (document? plainText []) := by
    intro v hv
    simp only [threeVariables, List.mem_cons, List.not_mem_nil, or_false] at hv
    rcases hv with rfl | rfl | rfl
    · exact ⟨.strictness .two, .basic, ⟨⟨trivial, by decide +kernel⟩, by decide +kernel⟩,
        by decide +kernel⟩
    · exact ⟨.bidder "appnexus", (32 : VendorId),
        ⟨⟨by decide +kernel, by decide +kernel⟩, by decide +kernel⟩, by decide +kernel⟩
    · exact ⟨.enabled, false, ⟨⟨trivial, by decide +kernel⟩, by decide +kernel⟩,
        by decide +kernel⟩
  have hnames : (threeVariables.map Variable.lowerName).Nodup := by decide +kernel
  obtain ⟨result, hresult, hall⟩ := load_overridden hload hsets hnames
  have hfirst : load plainText threeVariables = .ok result := hall _ (by decide +kernel)
  have hsecond : load plainText (⟨"HOME", "/root"⟩ :: threeVariables.reverse) = .ok result :=
    hall _ (by decide +kernel)
  refine ⟨_, result, hload, hresult, hfirst, hsecond, ?_⟩
  apply Except.ok.inj
  rw [← hfirst]
  decide +kernel

end Settings

end ConsentGate
