import ConsentGate.Settings.Loading

/-!
# Rejecting blank codes

Settings that are decoded are loaded exactly if every bidder code in them names somebody: each code
among the exceptions of the ten purposes and of special feature 1, and each code in the map of
bidders. Otherwise each collection with a code that names nobody is reported once, under its own
path, however many such codes it holds and however many collections do. So a blank code is exempt
from nothing and has no vendor id in settings that are loaded.

Results:

* `namesSomebody_iff`: a code names somebody exactly if it is not blank.
* `Policy.valid_iff`: validity, with the twelve collections spelled out.
* `Policy.nodup_reports`, `Policy.mem_reports_iff`: what is reported, and that it is reported once.
* `Settings.load_rejects_blank`: what loading makes of decoded settings.
-/

namespace ConsentGate

/-- Some character of a code is not blank. -/
def NamesSomebody (code : String) : Prop := ∃ c ∈ code.toList, Text.isBlank c = false

theorem namesSomebody_iff {code : String} : NamesSomebody code ↔ ¬ Text.IsBlank code := by
  simp [NamesSomebody, Text.IsBlank]

theorem not_namesSomebody_iff {code : String} : ¬ NamesSomebody code ↔ Text.IsBlank code := by
  simp [NamesSomebody, Text.IsBlank]

namespace Policy

/-! ## The twelve collections -/

/-- Every code in a policy names somebody. -/
structure EveryCodeNames (policy : Policy) : Prop where
  purposes : ∀ p, ∀ code ∈ (policy.purposes.get p).exceptions, NamesSomebody code
  location : ∀ code ∈ policy.location.exceptions, NamesSomebody code
  bidders : ∀ code v, policy.bidders.find? code = some v → NamesSomebody code

/-- A collection with a path holds a code that names nobody. -/
inductive BlankAt (policy : Policy) : String → Prop
  | purpose (p : Purpose) {code : String} (listed : code ∈ (policy.purposes.get p).exceptions)
    (blank : ¬ NamesSomebody code) :
    BlankAt policy ("gdpr.purposes." ++ p.key ++ ".vendor_exceptions")
  | location {code : String} (listed : code ∈ policy.location.exceptions)
    (blank : ¬ NamesSomebody code) : BlankAt policy "gdpr.special_features.sf1.vendor_exceptions"
  | bidders {code : String} {v : VendorId} (mapped : policy.bidders.find? code = some v)
    (blank : ¬ NamesSomebody code) : BlankAt policy "gdpr.bidders"

theorem mem_codes_bidders_iff {policy : Policy} {code : String} :
    code ∈ policy.codes .bidders ↔ ∃ v, policy.bidders.find? code = some v := by
  simp [codes, OrderedMap.keys, OrderedMap.find?_eq_some_iff]

/-- A policy is valid exactly if every code in it names somebody. -/
theorem valid_iff {policy : Policy} : policy.Valid ↔ policy.EveryCodeNames := by
  simp only [Valid, ← namesSomebody_iff]
  constructor
  · intro h
    exact ⟨fun p => h (.purpose p), h .location, fun code v hv =>
      h .bidders code (mem_codes_bidders_iff.2 ⟨v, hv⟩)⟩
  · intro h place code hcode
    cases place with
    | purpose p => exact h.purposes p code hcode
    | location => exact h.location code hcode
    | bidders =>
      obtain ⟨v, hv⟩ := mem_codes_bidders_iff.1 hcode
      exact h.bidders code v hv

/-! ## Reports -/

/-- No collection is reported twice, since each has its own path. -/
theorem nodup_reports (policy : Policy) :
    (policy.invalidPlaces.map Place.settingsReport).Nodup := by
  have hall : (Place.all.map Place.settingsReport).Nodup := by decide +kernel
  have hsublist : policy.invalidPlaces.Sublist Place.all := List.filter_sublist
  exact (hsublist.map _).nodup hall

/-- What is reported is the path of each collection with a code that names nobody. -/
theorem mem_reports_iff {policy : Policy} {report : String} :
    report ∈ policy.invalidPlaces.map Place.settingsReport ↔
      ∃ path, policy.BlankAt path ∧ report = path ++ ": empty_bidder_code" := by
  simp only [List.mem_map, mem_invalidPlaces, ← not_namesSomebody_iff]
  constructor
  · rintro ⟨place, ⟨code, hcode, hblank⟩, rfl⟩
    cases place with
    | purpose p => exact ⟨_, .purpose p hcode hblank, rfl⟩
    | location => exact ⟨_, .location hcode hblank, rfl⟩
    | bidders =>
      obtain ⟨v, hv⟩ := mem_codes_bidders_iff.1 hcode
      exact ⟨_, .bidders hv hblank, rfl⟩
  · rintro ⟨path, hpath, rfl⟩
    cases hpath with
    | purpose p listed blank => exact ⟨.purpose p, ⟨_, listed, blank⟩, rfl⟩
    | location listed blank => exact ⟨.location, ⟨_, listed, blank⟩, rfl⟩
    | bidders mapped blank =>
      exact ⟨.bidders, ⟨_, mem_codes_bidders_iff.2 ⟨_, mapped⟩, blank⟩, rfl⟩

/-- A blank code is exempt from nothing and has no vendor id, where every code names somebody. -/
theorem EveryCodeNames.unknown {policy : Policy} (h : policy.EveryCodeNames) {code : String}
    (hblank : ¬ NamesSomebody code) :
    (∀ p, (policy.purposes.get p).exempts (some code) = false) ∧
      policy.location.exempts (some code) = false ∧ policy.bidders.find? code = none := by
  refine ⟨fun p => ?_, ?_, ?_⟩
  · rw [PurposePolicy.exempts, ConsentGate.exempts, ← Bool.not_eq_true, OrderedSet.contains_iff]
    exact fun listed => hblank (h.purposes p code listed)
  · rw [FeaturePolicy.exempts, ConsentGate.exempts, ← Bool.not_eq_true, OrderedSet.contains_iff]
    exact fun listed => hblank (h.location code listed)
  · rw [Option.eq_none_iff_forall_ne_some]
    exact fun v mapped => hblank (h.bidders code v mapped)

end Policy

/-! ## Loading -/

namespace Settings

/-- Decoded settings are loaded exactly if every code in them names somebody. Otherwise they are
rejected with one report for each collection that holds a code that names nobody. In settings that
are loaded such a code is exempt from nothing and has no vendor id. -/
theorem load_rejects_blank {text : String} {environment : List Variable} {document : Node}
    {policy : Policy} (hdocument : document? text environment = some document)
    (hpolicy : Policy.ofDocument? document = some policy) :
    (load text environment = .ok policy ↔ policy.EveryCodeNames) ∧
      (¬ policy.EveryCodeNames → ∃ places,
        load text environment = .error (.invalid places) ∧
        (Fault.settings (.invalid places)).message =
          "Configuration error: Settings validation failed" ∧
        (places.map Place.settingsReport).Nodup ∧
        ∀ report, report ∈ places.map Place.settingsReport ↔
          ∃ path, policy.BlankAt path ∧ report = path ++ ": empty_bidder_code") ∧
      ∀ loaded, load text environment = .ok loaded → ∀ code, ¬ NamesSomebody code →
        (∀ p, (loaded.purposes.get p).exempts (some code) = false) ∧
          loaded.location.exempts (some code) = false ∧ loaded.bidders.find? code = none := by
  have hload := load_of_decoded hdocument hpolicy
  have hvalid : policy.invalidPlaces = [] ↔ policy.EveryCodeNames :=
    Policy.invalidPlaces_eq_nil_iff.trans Policy.valid_iff
  refine ⟨⟨fun hok => ?_, fun hnames => ?_⟩, fun hblank => ?_, fun loaded hok code hcode => ?_⟩
  · obtain ⟨_, _, _, hvalid⟩ := load_eq_ok_iff.1 hok
    exact Policy.valid_iff.1 hvalid
  · rw [hload, if_pos (hvalid.2 hnames)]
  · refine ⟨policy.invalidPlaces, ?_, rfl, policy.nodup_reports, fun _ => Policy.mem_reports_iff⟩
    rw [hload, if_neg fun hnil => hblank (hvalid.1 hnil)]
  · obtain ⟨_, _, _, hvalid⟩ := load_eq_ok_iff.1 hok
    exact (Policy.valid_iff.1 hvalid).unknown hcode

/-- Settings with blank codes in two of their collections, twice in the one. -/
def blankText : String :=
  "[gdpr.purposes.p10]\nvendor_exceptions = [\"\", \"house\", \" \\t\"]\n" ++
    "[gdpr.bidders]\n\"\\u2003\" = 52\nrubicon = 32\n"

/-- What the settings with blank codes are decoded to. -/
def blankPolicy : Policy where
  purposes := PerPurpose.set (.ofFn fun _ => {}) .ten { exceptions := .ofList ["", "house", " \t"] }
  bidders := .ofList [("\u2003", 52), ("rubicon", 32)]

/-- Both collections are reported, once each, and nothing else is. -/
theorem load_rejects_blank_twoCollections :
    ∃ document places, document? blankText [] = some document ∧
      Policy.ofDocument? document = some blankPolicy ∧ ¬ blankPolicy.EveryCodeNames ∧
      load blankText [] = .error (.invalid places) ∧
      (places.map Place.settingsReport).Nodup ∧
      ∀ report, report ∈ places.map Place.settingsReport ↔
        report ∈ ["gdpr.bidders: empty_bidder_code",
          "gdpr.purposes.p10.vendor_exceptions: empty_bidder_code"] := by
  have hdecoded : (document? blankText []).bind Policy.ofDocument? = some blankPolicy := by
    decide +kernel
  obtain ⟨document, hdocument, hpolicy⟩ := Option.bind_eq_some_iff.1 hdecoded
  have hinvalid : blankPolicy.invalidPlaces = [.bidders, .purpose .ten] := by decide +kernel
  have hblank : ¬ blankPolicy.EveryCodeNames := by
    rw [← Policy.valid_iff, ← Policy.invalidPlaces_eq_nil_iff, hinvalid]
    exact List.cons_ne_nil _ _
  obtain ⟨places, hload, -, hnodup, hreports⟩ := (load_rejects_blank hdocument hpolicy).2.1 hblank
  refine ⟨document, places, hdocument, hpolicy, hblank, hload, hnodup, fun report => ?_⟩
  have hpaths : [Place.bidders, .purpose .ten].map Place.settingsReport =
      ["gdpr.bidders: empty_bidder_code",
        "gdpr.purposes.p10.vendor_exceptions: empty_bidder_code"] := by
    decide +kernel
  rw [hreports, ← Policy.mem_reports_iff, hinvalid, hpaths]

end Settings

end ConsentGate
