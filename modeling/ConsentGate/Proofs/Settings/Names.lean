import ConsentGate.Policy
import ConsentGate.Settings.Environment
import ConsentGate.Text.Blank

/-!
# Names of overriding variables

A scalar setting stands under a chain of keys in a settings document, and the variable that
overrides it is named after these keys. Case does not matter, and the double underscores between the
parts never run into the single ones inside a part, so the name is read as the path through the keys
again.

Results:

* `Variable.dotted_joined`: joined keys are read as the same keys with dots between them.
* `Variable.Names.path`: the setting that a variable names is found under the keys of the setting.
* `Setting.ofKeys?_append`: a setting can be told from its keys, whatever follows them.
* `Setting.eq_of_keys_below`, `Variable.Names.unique`: so no setting stands below another one, and a
  variable names one setting.
-/

namespace ConsentGate

/-! ## Settings -/

/-- A scalar setting: one of the fields of a policy that are no set, or the vendor id of a bidder
code. -/
inductive Setting where
  | enabled
  | appliesByDefault
  | treatment
  | strictness (p : Purpose)
  | checksVendors (p : Purpose)
  | locationEnforced
  | bidder (code : String)
  deriving DecidableEq

namespace Setting

/-- The keys that lead to a setting in a settings document. -/
def keys : Setting → List String
  | enabled => ["gdpr", "enabled"]
  | appliesByDefault => ["gdpr", "default_value"]
  | treatment => ["gdpr", "purpose_one_treatment_interpretation"]
  | strictness p => ["gdpr", "purposes", p.key, "enforce_purpose"]
  | checksVendors p => ["gdpr", "purposes", p.key, "enforce_vendors"]
  | locationEnforced => ["gdpr", "special_features", "sf1", "enforce"]
  | bidder code => ["gdpr", "bidders", code]

/-- A small ASCII letter or a digit. -/
def isCodeChar (c : Char) : Bool := ('a' ≤ c && c ≤ 'z') || c.isDigit

/-- Whether a variable can name a setting: a bidder code is made of small ASCII letters and
digits. -/
def Nameable : Setting → Prop
  | bidder code => code ≠ "" ∧ code.toList.all isCodeChar = true
  | _ => True

instance : (s : Setting) → Decidable s.Nameable
  | bidder _ => inferInstanceAs (Decidable (_ ∧ _))
  | enabled | appliesByDefault | treatment | strictness _ | checksVendors _
  | locationEnforced => .isTrue trivial

/-- The name of the variable for a setting, in lower case. -/
def variableName (s : Setting) : List Char :=
  "tcf_broker".toList ++ s.keys.flatMap fun key => '_' :: '_' :: key.toList

end Setting

/-- The setting that keys lead to, or pass. -/
def Setting.ofKeys? : List String → Option Setting
  | "gdpr" :: "enabled" :: _ => some .enabled
  | "gdpr" :: "default_value" :: _ => some .appliesByDefault
  | "gdpr" :: "purpose_one_treatment_interpretation" :: _ => some .treatment
  | "gdpr" :: "purposes" :: key :: "enforce_purpose" :: _ =>
    (Purpose.all.find? fun p => p.key = key).map .strictness
  | "gdpr" :: "purposes" :: key :: "enforce_vendors" :: _ =>
    (Purpose.all.find? fun p => p.key = key).map .checksVendors
  | "gdpr" :: "special_features" :: "sf1" :: "enforce" :: _ => some .locationEnforced
  | "gdpr" :: "bidders" :: code :: _ => some (.bidder code)
  | _ => none

theorem Purpose.find?_key (p : Purpose) :
    (Purpose.all.find? fun q => q.key = p.key) = some p := by
  cases p <;> decide

/-- The keys of a setting tell it from all others, whatever follows them. -/
theorem Setting.ofKeys?_append (s : Setting) (rest : List String) :
    ofKeys? (s.keys ++ rest) = some s := by
  cases s with
  | enabled | appliesByDefault | treatment | locationEnforced | bidder _ => rfl
  | strictness p => exact congrArg (Option.map Setting.strictness) p.find?_key
  | checksVendors p => exact congrArg (Option.map Setting.checksVendors) p.find?_key

/-- No setting stands below another one. -/
theorem Setting.eq_of_keys_below {s t : Setting} (h : s.keys <+: t.keys) : s = t := by
  obtain ⟨rest, hrest⟩ := h
  have ht : ofKeys? (t.keys ++ []) = some t := ofKeys?_append t []
  rw [List.append_nil, ← hrest, ofKeys?_append] at ht
  exact Option.some.inj ht

/-! ## Names -/

namespace Variable

/-- The name of a variable, in lower case. -/
def lowerName (v : Variable) : List Char := v.name.toList.map lowerChar

/-- Every underscore stands before another character, so that none joins one that follows the
text. -/
def apart : List Char → Bool
  | [] => true
  | c :: rest => (c != '_' || rest.head?.any (· != '_')) && apart rest

theorem dotted_append {s rest : List Char} (h : apart s = true) :
    dotted (s ++ rest) = s ++ dotted rest := by
  induction s with
  | nil => rfl
  | cons c s ih =>
    rw [apart, Bool.and_eq_true] at h
    have hnext (after : List Char) (hc : c = '_') : s ++ rest ≠ '_' :: after := by
      intro heq
      cases s with
      | nil => simp [hc] at h
      | cons d s =>
        obtain ⟨rfl, -⟩ := List.cons.inj heq
        simp [hc] at h
    rw [List.cons_append, dotted, ih h.2, List.cons_append]
    exact hnext

/-- Characters that are no underscores keep apart. -/
theorem apart_of_ne {s : List Char} (h : ∀ c ∈ s, c ≠ '_') : apart s = true := by
  induction s with
  | nil => rfl
  | cons c s ih =>
    have hc : (c != '_') = true := bne_iff_ne.2 (h c List.mem_cons_self)
    have hrest := ih fun d hd => h d (List.mem_cons_of_mem _ hd)
    rw [apart, hc, hrest, Bool.true_or, Bool.and_true]

theorem settingName?_eq (v : Variable) :
    v.settingName? =
      if mark.isPrefixOf v.lowerName then
        some (.ofList (dotted (v.lowerName.drop mark.length)))
      else none := rfl

/-- A key that a variable name can hold. -/
def IsPart (key : String) : Prop := Path.IsKey key ∧ apart key.toList = true

instance (key : String) : Decidable (IsPart key) := inferInstanceAs (Decidable (_ ∧ _))

/-- Joined keys are read as the same keys with dots between them. -/
theorem dotted_joined {keys : List String} (h : ∀ key ∈ keys, IsPart key) :
    dotted (keys.flatMap fun key => '_' :: '_' :: key.toList) = Path.dots keys := by
  induction keys with
  | nil => rfl
  | cons key keys ih =>
    have hkey := h key List.mem_cons_self
    have hrest := ih fun k hk => h k (List.mem_cons_of_mem _ hk)
    rw [List.flatMap_cons, List.cons_append, List.cons_append, dotted, dotted_append hkey.2,
      hrest]
    rfl

/-- A variable named after some keys overrides what the path through the keys leads to. -/
theorem path_of_lowerName {v : Variable} {key : String} {keys : List String}
    (h : ∀ k ∈ key :: keys, IsPart k)
    (hname : v.lowerName =
      "tcf_broker".toList ++ (key :: keys).flatMap fun k => '_' :: '_' :: k.toList) :
    ∃ name, v.settingName? = some name ∧ Path.ofText? name = some ((key :: keys).map .key) := by
  have hmark : v.lowerName =
      mark ++ (key.toList ++ keys.flatMap fun k => '_' :: '_' :: k.toList) := hname
  have hpath := Path.ofText?_keys fun k hk => (h k hk).1
  have hrest := dotted_joined fun k hk => h k (List.mem_cons_of_mem _ hk)
  have hkey := h key List.mem_cons_self
  refine ⟨_, ?_, hpath⟩
  have hstart : mark.isPrefixOf v.lowerName = true := by
    rw [hmark]
    exact List.isPrefixOf_iff_prefix.2 (List.prefix_append _ _)
  rw [settingName?_eq, if_pos hstart, hmark, List.drop_left, dotted_append hkey.2, hrest]

end Variable

namespace Setting

theorem isKeyChar_of_isCodeChar {c : Char} (h : isCodeChar c = true) :
    Path.isKeyChar c = true := by
  rcases Bool.or_eq_true_iff.1 h with hletter | hdigit
  · rw [Path.isKeyChar, hletter]
    rfl
  · rw [Path.isKeyChar, hdigit, Bool.or_true]
    rfl

theorem isPart_code {code : String} (h : (bidder code).Nameable) : Variable.IsPart code := by
  obtain ⟨hne, hchars⟩ := h
  rw [List.all_eq_true] at hchars
  have hkey : code.toList.all Path.isKeyChar = true :=
    List.all_eq_true.2 fun c hc => isKeyChar_of_isCodeChar (hchars c hc)
  refine ⟨⟨hne, hkey⟩, ?_⟩
  apply Variable.apart_of_ne
  rintro c hc rfl
  exact absurd (hchars '_' hc) (by decide)

/-- A bidder code that can be named is not blank. -/
theorem not_isBlank_of_nameable {code : String} (h : (bidder code).Nameable) :
    ¬ Text.IsBlank code := by
  intro hblank
  obtain ⟨hne, hchars⟩ := h
  have hnil : code.toList ≠ [] := fun hnil => hne (String.toList_eq_nil_iff.1 hnil)
  obtain ⟨c, hc⟩ := List.exists_mem_of_ne_nil _ hnil
  have hcode := List.all_eq_true.1 hchars c hc
  have hspace := hblank c hc
  simp only [isCodeChar, Char.isDigit, Bool.or_eq_true, Bool.and_eq_true,
    decide_eq_true_eq] at hcode
  simp only [Text.isBlank, Bool.or_eq_true, Bool.and_eq_true, decide_eq_true_eq,
    beq_iff_eq] at hspace
  have hrange : (97 ≤ c.toNat ∧ c.toNat ≤ 122) ∨ (48 ≤ c.toNat ∧ c.toNat ≤ 57) := hcode
  omega

/-- Every key of a setting that can be named is one that a variable name can hold. -/
theorem isPart_keys {s : Setting} (h : s.Nameable) : ∀ key ∈ s.keys, Variable.IsPart key := by
  cases s with
  | enabled | appliesByDefault | treatment | locationEnforced => decide +kernel
  | strictness p | checksVendors p => cases p <;> decide +kernel
  | bidder code =>
    have hfixed : ∀ key ∈ ["gdpr", "bidders"], Variable.IsPart key := by decide +kernel
    have hkeys : (bidder code).keys = ["gdpr", "bidders"] ++ [code] := rfl
    intro key hkey
    rw [hkeys] at hkey
    rcases List.mem_append.1 hkey with hkey | hkey
    · exact hfixed key hkey
    · obtain rfl := List.mem_singleton.1 hkey
      exact isPart_code h

end Setting

namespace Variable

/-- A variable names a setting. -/
structure Names (v : Variable) (s : Setting) : Prop where
  nameable : s.Nameable
  lowerName : v.lowerName = s.variableName

variable {v : Variable} {s t : Setting}

/-- The setting that a variable names is found under the keys of the setting. -/
theorem Names.path (h : v.Names s) :
    ∃ name, v.settingName? = some name ∧ Path.ofText? name = some (s.keys.map .key) := by
  have hparts := Setting.isPart_keys h.nameable
  have hname := h.lowerName
  unfold Setting.variableName at hname
  cases hkeys : s.keys with
  | nil => cases s <;> cases hkeys
  | cons key keys =>
    rw [hkeys] at hparts hname
    exact path_of_lowerName hparts hname

/-- A variable names one setting. -/
theorem Names.unique (hs : v.Names s) (ht : v.Names t) : s = t := by
  obtain ⟨name, hname, hpath⟩ := hs.path
  obtain ⟨name', hname', hpath'⟩ := ht.path
  obtain rfl : name = name' := Option.some.inj (hname.symm.trans hname')
  have hkeys : s.keys.map PathStep.key = t.keys.map .key :=
    Option.some.inj (hpath.symm.trans hpath')
  have hsame : s.keys = t.keys := (List.map_inj_right fun _ _ => PathStep.key.inj).1 hkeys
  exact Setting.eq_of_keys_below (hsame ▸ List.prefix_rfl)

end Variable

end ConsentGate
