import ConsentGate.CommandLine.Run
import ConsentGate.Proofs.Json.RoundTrip
import Mathlib.Data.List.Forall2

/-!
# The command line refines the library

One enforcement from the command line is one enforcement by the library: it reads three files in a
fixed order, fails with the first that cannot be read or is rejected, and else prints what the
library decides. A consent that nothing depends on is read all the same. What it prints says of each
permission the vendor id, the bidder code and the seven flags, in either layout.

Results:

* `CommandLine.decodeFile_eq_ok_iff`, `CommandLine.decodeFile_eq_error_iff`: when a file is
  accepted, and why it is not.
* `CommandLine.permissions_eq_ok_iff`, `CommandLine.permissions_eq_error_iff`: the same for the
  three files of a run.
* `CommandLine.read?_permissionsText`: the printed text is read back.
* `Permission.isShownBy_toJson`: what is written of a permission shows it.
* `CommandLine.enforce_refines`: what one enforcement returns.
-/

namespace ConsentGate

/-! ## Permissions as documents -/

/-- An object with the given fields and no other, each of which holds what is asked of its value. -/
def Json.HasFields (asked : List (String × (Json → Prop))) (document : Json) : Prop :=
  ∃ fields named, document = .object fields ∧ Json.named? fields = some named ∧
    List.Forall₂ (fun ask field => field.1 = ask.1 ∧ ask.2 field.2) asked named

/-- A document that denotes a value that may be missing: null denotes that it is. -/
def Json.Denotes {α : Type} (read? : Json → Option α) (value : Option α) (document : Json) : Prop :=
  value.elim (document = .null) fun a => read? document = some a

theorem Json.hasFields_record {asked : List (String × (Json → Prop))}
    {fields : List (String × Json)}
    (h : List.Forall₂ (fun ask field => field.1 = ask.1 ∧ ask.2 field.2) asked fields) :
    Json.HasFields asked (.record fields) :=
  ⟨_, fields, rfl, Json.named?_map fields, h⟩

theorem Json.denotes_ofOption {α : Type} {read? : Json → Option α} {write : α → Json}
    (h : ∀ a, read? (write a) = some a) (value : Option α) :
    Json.Denotes read? value (.ofOption write value) := by
  cases value with
  | none => exact rfl
  | some a => exact h a

theorem Json.wellFormed_ofOption {α : Type} {write : α → Json} (h : ∀ a, (write a).WellFormed)
    (value : Option α) : (Json.ofOption write value).WellFormed := by
  cases value with
  | none => trivial
  | some a => exact h a

/-- The name of a flag in documents. -/
def Flag.key : Flag → String
  | .blockBidderRequest => "block_bidder_request"
  | .blockPixelSync => "block_pixel_sync"
  | .blockAnalyticsReport => "block_analytics_report"
  | .removeUserFpd => "remove_user_fpd"
  | .removeUserIds => "remove_user_ids"
  | .maskGeo => "mask_geo"
  | .maskDeviceIp => "mask_device_ip"

theorem Restrictions.toJson_eq (r : Restrictions) :
    r.toJson = .record (Flag.all.map fun f => (f.key, .bool (r.isRestricted f))) := rfl

namespace Permission

/-- A document that shows a permission: its vendor id, its bidder code and every flag. -/
def IsShownBy (q : Permission) (document : Json) : Prop :=
  document.HasFields
    [("vendor_id", Json.Denotes Json.word? q.vendor),
      ("bidder", Json.Denotes Json.text? q.bidder),
      ("action", Json.HasFields (Flag.all.map fun f => (f.key, (· = .bool (q.isRestricted f)))))]

/-- What is written of a permission shows it. -/
theorem isShownBy_toJson (q : Permission) : q.IsShownBy q.toJson := by
  have hvendor := Json.denotes_ofOption Json.word?_ofWord q.vendor
  have hbidder := Json.denotes_ofOption Json.text?_ofString q.bidder
  have haction : Json.HasFields (Flag.all.map fun f => (f.key, (· = .bool (q.isRestricted f))))
      q.restrictions.toJson := by
    rw [Restrictions.toJson_eq]
    apply Json.hasFields_record
    rw [List.forall₂_map_left_iff, List.forall₂_map_right_iff, List.forall₂_same]
    intro f _
    exact ⟨rfl, rfl⟩
  apply Json.hasFields_record
  exact .cons ⟨rfl, hvendor⟩ (.cons ⟨rfl, hbidder⟩ (.cons ⟨rfl, haction⟩ .nil))

theorem wellFormed_toJson (q : Permission) : q.toJson.WellFormed := by
  have haction : q.restrictions.toJson.WellFormed := by
    rw [Restrictions.toJson_eq]
    apply Json.wellFormed_record
    intro field hfield
    obtain ⟨f, -, rfl⟩ := List.mem_map.1 hfield
    trivial
  apply Json.wellFormed_record
  intro field hfield
  simp only [List.mem_cons, List.not_mem_nil, or_false] at hfield
  rcases hfield with rfl | rfl | rfl
  · exact Json.wellFormed_ofOption (fun v => Json.wellFormed_ofNat v.toNat) q.vendor
  · exact Json.wellFormed_ofOption Json.wellFormed_ofString q.bidder
  · exact haction

end Permission

namespace CommandLine

/-- The printed text is read back, in either layout. -/
theorem read?_permissionsText (pretty : Bool) (permissions : List Permission) :
    Json.read? (permissionsText pretty permissions) =
      some (.array (permissions.map Permission.toJson)) := by
  have hdoc : (permissionsJson permissions).WellFormed :=
    Json.wellFormed_map Permission.wellFormed_toJson permissions
  cases pretty with
  | false => exact Json.read?_render Json.Layout.spaced_compact hdoc
  | true => exact Json.read?_render Json.Layout.spaced_indented hdoc

/-! ## Files -/

/-- The result of reading a file and decoding its text. -/
def decodeFile {ε α : Type} (files : Files) (path : String) (decode : String → Except ε α)
    (wrap : ε → RunFault) : Except RunFault α :=
  (files path).mapError .unreadable >>= fun text => (decode text).mapError wrap

/-- A file can be read, and its text is accepted with a value. -/
def Accepted {ε α : Type} (files : Files) (path : String) (decode : String → Except ε α) (a : α) :
    Prop :=
  ∃ text, files path = .ok text ∧ decode text = .ok a

/-- Why a file is of no use, and what area the fault belongs to: it cannot be read, or its text is
rejected. -/
inductive FileFault {ε α : Type} (files : Files) (path : String) (decode : String → Except ε α)
    (wrap : ε → RunFault) (area : Area) : RunFault → Area → Prop
  | unreadable {fault : ReadFault} (h : files path = .error fault) :
    FileFault files path decode wrap area (.unreadable fault) .file
  | rejected {text : String} {fault : ε} (hread : files path = .ok text)
    (h : decode text = .error fault) : FileFault files path decode wrap area (wrap fault) area

section Files

variable {ε α : Type} {files : Files} {path : String} {decode : String → Except ε α}
  {wrap : ε → RunFault} {area : Area}

theorem decodeFile_eq_ok_iff {a : α} :
    decodeFile files path decode wrap = .ok a ↔ Accepted files path decode a := by
  unfold decodeFile Accepted
  simp only [bind_eq_ok, mapError_eq_ok]

/-- A file that is not accepted is unreadable, or its fault is in the area of its decoder. -/
theorem decodeFile_eq_error_iff (harea : ∀ fault, (wrap fault).failure.area = area)
    {fault : RunFault} {a : Area} :
    decodeFile files path decode wrap = .error fault ∧ fault.failure.area = a ↔
      FileFault files path decode wrap area fault a := by
  unfold decodeFile
  simp only [bind_eq_error, mapError_eq_error, mapError_eq_ok]
  constructor
  · rintro ⟨⟨unread, hread, rfl⟩ | ⟨text, hread, rejected, hdecode, rfl⟩, rfl⟩
    · exact .unreadable hread
    · rw [harea]
      exact .rejected hread hdecode
  · intro h
    cases h with
    | unreadable hread => exact ⟨.inl ⟨_, hread, rfl⟩, rfl⟩
    | rejected hread hdecode => exact ⟨.inr ⟨_, hread, _, hdecode, rfl⟩, harea _⟩

end Files

/-! ## Runs -/

/-- The consent that a path leads to; without a path there is none. -/
def AcceptedConsent (files : Files) (path? : Option String) (consent : Option Consent) : Prop :=
  path?.elim (consent = none) fun path =>
    ∃ c, consent = some c ∧ Accepted files path Consent.ofText c

/-- What the three files of a request say. -/
structure Loads (files : Files) (environment : List Variable) (request : EnforcementRequest)
    (policy : Policy) (list : VendorList) (consent : Option Consent) : Prop where
  settings : Accepted files request.file (Settings.load · environment) policy
  vendorList : Accepted files request.vendorList VendorList.ofText list
  consent : AcceptedConsent files request.consent consent

/-- The first file of a request that is of no use decides on the fault and on its area. -/
inductive FirstFault (files : Files) (environment : List Variable) (request : EnforcementRequest)
    (fault : RunFault) (area : Area) : Prop
  | settings
    (h : FileFault files request.file (Settings.load · environment) .settings .configuration
      fault area)
  | vendorList {policy : Policy}
    (settings : Accepted files request.file (Settings.load · environment) policy)
    (h : FileFault files request.vendorList VendorList.ofText (.vendorList request.vendorList)
      .input fault area)
  | consent {policy : Policy} {list : VendorList} {path : String}
    (settings : Accepted files request.file (Settings.load · environment) policy)
    (vendorList : Accepted files request.vendorList VendorList.ofText list)
    (named : request.consent = some path)
    (h : FileFault files path Consent.ofText (.consent path) .input fault area)

section Runs

variable {files : Files} {environment : List Variable} {verbose : Bool}
  {request : EnforcementRequest}

theorem result_loadPolicy (path : String) :
    (loadPolicy files environment verbose path).result =
      decodeFile files path (Settings.load · environment) .settings := by
  rw [loadPolicy, Run.result_bind, decodeFile]
  congr 1
  funext text
  rw [Run.result_bind, Run.report, ok_bind, Run.result_bind]
  exact bind_pure _

theorem result_loadVendorList (path : String) :
    (loadVendorList files path).result =
      decodeFile files path VendorList.ofText (.vendorList path) := by
  rw [loadVendorList, Run.result_bind, decodeFile]
  congr 1
  funext text
  rw [Run.result_bind]
  exact bind_pure _

theorem result_loadConsent (path : String) :
    (loadConsent files path).result = decodeFile files path Consent.ofText (.consent path) := rfl

theorem loadConsent?_eq_ok_iff {path? : Option String} {consent : Option Consent} :
    (loadConsent? files path?).result = .ok consent ↔ AcceptedConsent files path? consent := by
  unfold loadConsent? AcceptedConsent
  cases path? with
  | none => simp only [Run.result_pure, Except.ok.injEq, Option.elim_none, eq_comm]
  | some path =>
    simp only [Run.result_bind, result_loadConsent, bind_eq_ok, decodeFile_eq_ok_iff,
      Run.result_pure, Except.ok.injEq, Option.elim_some]
    apply exists_congr
    intro c
    rw [and_comm, eq_comm]

theorem loadConsent?_eq_error_iff {path? : Option String} {fault : RunFault} :
    (loadConsent? files path?).result = .error fault ↔
      ∃ path, path? = some path ∧
        decodeFile files path Consent.ofText (.consent path) = .error fault := by
  unfold loadConsent?
  cases path? with
  | none => exact ⟨nofun, nofun⟩
  | some path =>
    simp only [Run.result_bind, result_loadConsent, bind_eq_error, Run.result_pure]
    constructor
    · rintro (h | ⟨c, -, h⟩)
      · exact ⟨path, rfl, h⟩
      · cases h
    · rintro ⟨path', hpath, h⟩
      cases hpath
      exact .inl h

/-- The reports between the files do not change the result. -/
theorem result_permissions :
    (permissions files environment verbose request).result =
      (decodeFile files request.file (Settings.load · environment) .settings >>= fun policy =>
        decodeFile files request.vendorList VendorList.ofText (.vendorList request.vendorList) >>=
          fun list => (loadConsent? files request.consent).result >>= fun consent =>
            .ok (policy.enforceRequest request.gdprApplies (consent.map Consent.signal) list.source
              (policy.roster request.bidders)).1) := by
  rw [permissions, Run.result_bind, result_loadPolicy]
  simp only [Run.result_bind, result_loadVendorList]
  rfl

/-- A run ends with what the library decides on what its files say. -/
theorem permissions_eq_ok_iff {granted : List Permission} :
    (permissions files environment verbose request).result = .ok granted ↔
      ∃ policy list consent, Loads files environment request policy list consent ∧
        (policy.enforceRequest request.gdprApplies (consent.map Consent.signal) list.source
          (policy.roster request.bidders)).1 = granted := by
  simp only [result_permissions, bind_eq_ok, decodeFile_eq_ok_iff, loadConsent?_eq_ok_iff,
    Except.ok.injEq]
  constructor
  · rintro ⟨policy, hpolicy, list, hlist, consent, hconsent, rfl⟩
    exact ⟨policy, list, consent, ⟨hpolicy, hlist, hconsent⟩, rfl⟩
  · rintro ⟨policy, list, consent, h, rfl⟩
    exact ⟨policy, h.settings, list, h.vendorList, consent, h.consent, rfl⟩

/-- A run fails with the first of its files that is of no use. -/
theorem permissions_eq_error_iff {fault : RunFault} {area : Area} :
    (permissions files environment verbose request).result = .error fault ∧
        fault.failure.area = area ↔ FirstFault files environment request fault area := by
  have hsettings := @decodeFile_eq_error_iff _ _ files request.file (Settings.load · environment)
    .settings .configuration (fun _ => rfl) fault area
  have hlist := @decodeFile_eq_error_iff _ _ files request.vendorList VendorList.ofText
    (.vendorList request.vendorList) .input (fun _ => rfl) fault area
  have hconsent (path : String) := @decodeFile_eq_error_iff _ _ files path Consent.ofText
    (.consent path) .input (fun _ => rfl) fault area
  simp only [result_permissions, bind_eq_error, decodeFile_eq_ok_iff, loadConsent?_eq_error_iff]
  constructor
  · rintro ⟨h | ⟨policy, hpolicy, h | ⟨list, hlistRead, ⟨path, hpath, h⟩ | ⟨_, -, h⟩⟩⟩, ha⟩
    · exact .settings (hsettings.1 ⟨h, ha⟩)
    · exact .vendorList hpolicy (hlist.1 ⟨h, ha⟩)
    · exact .consent hpolicy hlistRead hpath ((hconsent path).1 ⟨h, ha⟩)
    · cases h
  · intro h
    cases h with
    | settings h =>
      obtain ⟨h, ha⟩ := hsettings.2 h
      exact ⟨.inl h, ha⟩
    | vendorList hpolicy h =>
      obtain ⟨h, ha⟩ := hlist.2 h
      exact ⟨.inr ⟨_, hpolicy, .inl h⟩, ha⟩
    | consent hpolicy hlistRead hpath h =>
      obtain ⟨h, ha⟩ := (hconsent _).2 h
      exact ⟨.inr ⟨_, hpolicy, .inr ⟨_, hlistRead, .inl ⟨_, hpath, h⟩⟩⟩, ha⟩

/-- What is printed is the text of the permissions. -/
theorem enforce_eq_ok_iff {output : String} :
    (enforce files environment verbose request).result = .ok output ↔
      ∃ granted, (permissions files environment verbose request).result = .ok granted ∧
        permissionsText request.pretty granted = output := by
  rw [enforce, Run.result_map, map_eq_ok]

theorem enforce_eq_error_iff {fault : RunFault} :
    (enforce files environment verbose request).result = .error fault ↔
      (permissions files environment verbose request).result = .error fault := by
  rw [enforce, Run.result_map, map_eq_error]

end Runs

/-- One enforcement from the command line prints the decision of the library exactly when all its
files are accepted, the consent included when one is named and whether or not it is used. It fails
with the first that is not, in the area of that file. What it prints, in either layout, is an array
that shows in turn each permission that the library returns for the bidders of the request. -/
theorem enforce_refines (files : Files) (environment : List Variable) (verbose : Bool)
    (request : EnforcementRequest) :
    ((∃ output, (enforce files environment verbose request).result = .ok output) ↔
      (∃ policy, Accepted files request.file (Settings.load · environment) policy) ∧
      (∃ list, Accepted files request.vendorList VendorList.ofText list) ∧
      ∀ path ∈ request.consent, ∃ consent, Accepted files path Consent.ofText consent) ∧
    (∀ fault area, (enforce files environment verbose request).result = .error fault ∧
      fault.failure.area = area ↔ FirstFault files environment request fault area) ∧
    ∀ output, (enforce files environment verbose request).result = .ok output →
      ∃ policy list consent, Loads files environment request policy list consent ∧
        ∃ items, Json.read? output = some (.array items) ∧
          List.Forall₂ Permission.IsShownBy
            (policy.enforceRequest request.gdprApplies (consent.map Consent.signal) list.source
              (policy.roster request.bidders)).1 items := by
  refine ⟨?_, fun fault area => ?_, fun output houtput => ?_⟩
  · constructor
    · rintro ⟨output, houtput⟩
      obtain ⟨granted, hgranted, -⟩ := enforce_eq_ok_iff.1 houtput
      obtain ⟨policy, list, consent, h, -⟩ := permissions_eq_ok_iff.1 hgranted
      refine ⟨⟨policy, h.settings⟩, ⟨list, h.vendorList⟩, fun path hpath => ?_⟩
      have hconsent := h.consent
      rw [Option.mem_def] at hpath
      rw [hpath] at hconsent
      obtain ⟨c, -, hc⟩ := hconsent
      exact ⟨c, hc⟩
    · rintro ⟨⟨policy, hpolicy⟩, ⟨list, hlist⟩, hconsents⟩
      obtain ⟨consent, hconsent⟩ : ∃ consent, AcceptedConsent files request.consent consent := by
        cases hpath : request.consent with
        | none => exact ⟨none, rfl⟩
        | some path =>
          obtain ⟨c, hc⟩ := hconsents path hpath
          exact ⟨some c, c, rfl, hc⟩
      have hloads : Loads files environment request policy list consent :=
        ⟨hpolicy, hlist, hconsent⟩
      simp only [enforce_eq_ok_iff, permissions_eq_ok_iff]
      exact ⟨_, _, ⟨policy, list, consent, hloads, rfl⟩, rfl⟩
  · rw [enforce_eq_error_iff]
    exact permissions_eq_error_iff
  · obtain ⟨granted, hgranted, rfl⟩ := enforce_eq_ok_iff.1 houtput
    obtain ⟨policy, list, consent, h, rfl⟩ := permissions_eq_ok_iff.1 hgranted
    refine ⟨policy, list, consent, h, _, read?_permissionsText _ _, ?_⟩
    rw [List.forall₂_map_right_iff, List.forall₂_same]
    intro q _
    exact q.isShownBy_toJson

/-- The files of a request under a policy that is switched off, with some text for the consent. -/
def idleFiles (consent : String) : Files := fun path =>
  if path = "settings.toml" then .ok "[gdpr]\nenabled = false\n"
  else if path = "list.json" then .ok "[1]"
  else if path = "consent.json" then .ok consent
  else .error .missing

/-- A request with a consent. -/
def idleRequest : EnforcementRequest where
  file := "settings.toml"
  vendorList := "list.json"
  consent := some "consent.json"

/-- The consent is read under a policy that is switched off: a text without an end is a fault of the
input. -/
theorem enforce_refines_idle :
    (∃ output, (enforce (idleFiles "[]") [] false idleRequest).result = .ok output) ∧
      ∃ fault, (enforce (idleFiles "[") [] false idleRequest).result = .error fault ∧
        fault.failure.area = .input := by
  have haccepted (consent : String) :
      (∃ policy, Accepted (idleFiles consent) "settings.toml" (Settings.load · []) policy) ∧
        ∃ list, Accepted (idleFiles consent) "list.json" VendorList.ofText list := by
    refine ⟨⟨{ enabled := false }, _, rfl, ?_⟩, ⟨{ version := 1 }, _, rfl, ?_⟩⟩
    · decide +kernel
    · decide +kernel
  constructor
  · apply (enforce_refines (idleFiles "[]") [] false idleRequest).1.2
    refine ⟨(haccepted "[]").1, (haccepted "[]").2, fun path hpath => ?_⟩
    cases hpath
    exact ⟨{}, _, rfl, by decide +kernel⟩
  · obtain ⟨⟨_, hsettings⟩, ⟨_, hlist⟩⟩ := haccepted "["
    have hread : idleFiles "[" "consent.json" = .ok "[" := rfl
    have hdecode : Consent.ofText "[" = .error .malformed := by decide +kernel
    have hfirst : FirstFault (idleFiles "[") [] idleRequest
        (.consent "consent.json" .malformed) .input :=
      .consent hsettings hlist rfl (.rejected hread hdecode)
    exact ⟨_, ((enforce_refines (idleFiles "[") [] false idleRequest).2.1 _ _).2 hfirst⟩

end CommandLine

end ConsentGate
