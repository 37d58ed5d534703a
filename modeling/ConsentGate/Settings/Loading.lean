import ConsentGate.Audit
import ConsentGate.Fault
import ConsentGate.Settings.Decoding
import ConsentGate.Settings.Environment
import ConsentGate.Toml.Document

/-!
# Loading settings

A settings text is read, laid over nothing entry by entry, overridden by the environment, decoded
and validated; the first of these that fails is the fault. This is `from_toml` of the specification,
section 8.

Results:

* `Settings.document?_eq_map`: the environment is laid over the document without it.
* `Settings.load_of_decoded`: what is decoded is loaded as far as it is valid.
* `Settings.load_eq_ok_iff`: what is loaded is decoded and valid.
-/

namespace ConsentGate.Settings

/-- The document of a settings text in an environment. The keys of the root are laid as paths,
in the order of the text: where several lead to one place, as `gdpr` and a quoted `"gdpr.enabled"`
do, the later one counts. A map that hashes the keys of the root, as `from_toml` builds one, leaves
that order open. -/
def document? (text : String) (environment : List Variable) : Option Node :=
  (Toml.document? text).map fun document =>
    (Node.layAll (.table []) document.entries).layAll (overrides environment)

/-- The policy of a settings text in an environment (`from_toml`). -/
def load (text : String) (environment : List Variable) : Except SettingsFault Policy :=
  match document? text environment with
  | none => .error .unreadable
  | some document =>
    match Policy.ofDocument? document with
    | none => .error .undecodable
    | some policy =>
      match policy.invalidPlaces with
      | [] => .ok policy
      | places => .error (.invalid places)

/-- The environment is laid over the document without it. -/
theorem document?_eq_map (text : String) (environment : List Variable) :
    document? text environment =
      (document? text []).map fun document => document.layAll (overrides environment) := by
  rw [document?, document?, Option.map_map]
  rfl

/-- What is decoded is loaded as far as it is valid. -/
theorem load_of_decoded {text : String} {environment : List Variable} {document : Node}
    {policy : Policy} (hdocument : document? text environment = some document)
    (hpolicy : Policy.ofDocument? document = some policy) :
    load text environment =
      if policy.invalidPlaces = [] then .ok policy
      else .error (.invalid policy.invalidPlaces) := by
  simp only [load, hdocument, hpolicy]
  cases policy.invalidPlaces with
  | nil => exact (if_pos rfl).symm
  | cons place places => exact (if_neg (List.cons_ne_nil _ _)).symm

/-- What is loaded is decoded and valid. -/
theorem load_eq_ok_iff {text : String} {environment : List Variable} {policy : Policy} :
    load text environment = .ok policy ↔
      ∃ document, document? text environment = some document ∧
        Policy.ofDocument? document = some policy ∧ policy.Valid := by
  constructor
  · intro h
    cases hdocument : document? text environment with
    | none => simp [load, hdocument] at h
    | some document =>
      cases hpolicy : Policy.ofDocument? document with
      | none => simp [load, hdocument, hpolicy] at h
      | some found =>
        rw [load_of_decoded hdocument hpolicy] at h
        split at h
        · rename_i hvalid
          obtain rfl := Except.ok.inj h
          exact ⟨document, rfl, hpolicy, Policy.invalidPlaces_eq_nil_iff.1 hvalid⟩
        · cases h
  · rintro ⟨document, hdocument, hpolicy, hvalid⟩
    rw [load_of_decoded hdocument hpolicy, if_pos (Policy.invalidPlaces_eq_nil_iff.2 hvalid)]

/-- What loading a policy reports. -/
def loaded (policy : Policy) : Event := .settingsLoaded policy.enabled policy.bidders.size

end ConsentGate.Settings
