import ConsentGate.CommandLine.Run
import Mathlib.Control.Monad.Basic
import Mathlib.Data.List.Sort

/-!
# Selecting bidders

A request may leave its bidders out, name them by code, or name them with their vendor ids. What
becomes of a list of named bidders is said bidder by bidder: a given id stays, a missing one is
filled in from the policy, and where the policy has none the bidder is reported. That every bidder
of the policy takes part can then be asked for in three ways, and all three lead to the same
auction.

Results:

* `Policy.resolves_iff`: what the bidders of an auction are and what choosing them reports.
* `Policy.Resolves.again`: choosing the chosen bidders again changes nothing.
* `Policy.registered_eq_map`: the bidders of the policy are those of its codes, in ascending order.
* `CommandLine.permissions_congr_roster`: a run depends on the named bidders through the auction.
* `Policy.roster_selects`: these, for one policy and any run under it.
-/

namespace ConsentGate

namespace Policy

/-- Bidders resolve to bidders, one after the other, and report events on the way. -/
inductive Resolves (policy : Policy) : List Bidder → List Bidder → List Event → Prop
  | done : Resolves policy [] [] []
  /-- A given vendor id stays, whatever id the policy has for the code. -/
  | given {code : String} {v : VendorId} {named chosen : List Bidder} {log : List Event}
    (rest : Resolves policy named chosen log) :
    Resolves policy (⟨code, some v⟩ :: named) (⟨code, some v⟩ :: chosen) log
  /-- A missing one is taken from the policy. -/
  | mapped {code : String} {v : VendorId} {named chosen : List Bidder} {log : List Event}
    (maps : policy.bidders.find? code = some v) (rest : Resolves policy named chosen log) :
    Resolves policy (⟨code, none⟩ :: named) (⟨code, some v⟩ :: chosen) log
  /-- A bidder for which the policy has none is left without an id, and reported. -/
  | unmapped {code : String} {named chosen : List Bidder} {log : List Event}
    (absent : policy.bidders.find? code = none) (rest : Resolves policy named chosen log) :
    Resolves policy (⟨code, none⟩ :: named) (⟨code, none⟩ :: chosen)
      (.unregisteredBidder code :: log)

variable {policy : Policy} {named chosen : List Bidder} {log : List Event}

/-! ## One bidder after the other -/

/-- The reports about some bidders: one for each that has no vendor id. -/
def unregistered (chosen : List Bidder) : List Event :=
  (chosen.filter fun b => b.vendor = none).map fun b => .unregisteredBidder b.code

theorem unregistered_cons_some {code : String} {v : VendorId} :
    unregistered (⟨code, some v⟩ :: chosen) = unregistered chosen := rfl

theorem unregistered_cons_none {code : String} :
    unregistered (⟨code, none⟩ :: chosen) = .unregisteredBidder code :: unregistered chosen := rfl

theorem rosterLog_eq : policy.rosterLog named = unregistered (policy.roster named) := rfl

theorem register_given {code : String} {v : VendorId} :
    policy.register ⟨code, some v⟩ = ⟨code, some v⟩ := rfl

theorem register_missing {code : String} :
    policy.register ⟨code, none⟩ = ⟨code, policy.bidders.find? code⟩ := rfl

/-- Looking up the vendor ids resolves any list of bidders. -/
theorem resolves_register (policy : Policy) (named : List Bidder) :
    Resolves policy named (named.map policy.register)
      (unregistered (named.map policy.register)) := by
  induction named with
  | nil => exact .done
  | cons b named ih =>
    obtain ⟨code, vendor⟩ := b
    cases vendor with
    | some v =>
      rw [List.map_cons, register_given, unregistered_cons_some]
      exact .given ih
    | none =>
      rw [List.map_cons, register_missing]
      cases h : policy.bidders.find? code with
      | some v =>
        rw [unregistered_cons_some]
        exact .mapped h ih
      | none =>
        rw [unregistered_cons_none]
        exact .unmapped h ih

/-- Bidders resolve in one way. -/
theorem Resolves.eq (h : Resolves policy named chosen log) :
    chosen = named.map policy.register ∧ log = unregistered chosen := by
  induction h with
  | done => exact ⟨rfl, rfl⟩
  | given rest ih =>
    obtain ⟨rfl, rfl⟩ := ih
    exact ⟨rfl, rfl⟩
  | mapped maps rest ih =>
    obtain ⟨rfl, rfl⟩ := ih
    rw [List.map_cons, register_missing, maps]
    exact ⟨rfl, rfl⟩
  | unmapped absent rest ih =>
    obtain ⟨rfl, rfl⟩ := ih
    rw [List.map_cons, register_missing, absent]
    exact ⟨rfl, rfl⟩

theorem roster_of_ne_nil (h : named ≠ []) : policy.roster named = named.map policy.register :=
  if_neg h

/-- What the bidders of an auction are when some are named, and what choosing them reports. -/
theorem resolves_iff (h : named ≠ []) :
    Resolves policy named chosen log ↔
      policy.roster named = chosen ∧ policy.rosterLog named = log := by
  rw [rosterLog_eq, roster_of_ne_nil h]
  constructor
  · intro hr
    obtain ⟨rfl, rfl⟩ := hr.eq
    exact ⟨rfl, rfl⟩
  · rintro ⟨rfl, rfl⟩
    exact resolves_register policy named

/-- Each chosen bidder stands in the place of the named one, with its code, with the vendor id that
it was given, and else with the one that the policy has for the code. -/
theorem Resolves.forall₂ (h : Resolves policy named chosen log) :
    List.Forall₂ (fun b c : Bidder => c.code = b.code ∧ (∀ v ∈ b.vendor, c.vendor = some v) ∧
      (b.vendor = none → c.vendor = policy.bidders.find? b.code)) named chosen := by
  induction h with
  | done => exact .nil
  | given rest ih => exact .cons ⟨rfl, fun _ hv => hv, nofun⟩ ih
  | mapped maps rest ih => exact .cons ⟨rfl, nofun, fun _ => maps.symm⟩ ih
  | unmapped absent rest ih => exact .cons ⟨rfl, nofun, fun _ => absent.symm⟩ ih

/-- Choosing the chosen bidders again changes nothing, and reports the same bidders again. -/
theorem Resolves.again (h : Resolves policy named chosen log) :
    Resolves policy chosen chosen log := by
  induction h with
  | done => exact .done
  | given rest ih => exact .given ih
  | mapped maps rest ih => exact .given ih
  | unmapped absent rest ih => exact .unmapped absent ih

theorem Resolves.ne_nil (h : Resolves policy named chosen log) (hnamed : named ≠ []) :
    chosen ≠ [] := by
  cases h with
  | done => exact absurd rfl hnamed
  | given rest => exact List.cons_ne_nil _ _
  | mapped maps rest => exact List.cons_ne_nil _ _
  | unmapped absent rest => exact List.cons_ne_nil _ _

theorem line_unregisteredBidder (code : String) :
    (Event.unregisteredBidder code).line = "WARN Bidder '" ++ code ++ "' has no GVL vendor id" := by
  have hword : Level.warn.name ++ " " ++ "Bidder '" = "WARN Bidder '" := by decide
  calc Level.warn.name ++ " " ++ ("Bidder '" ++ code ++ "' has no GVL vendor id")
      = Level.warn.name ++ " " ++ "Bidder '" ++ code ++ "' has no GVL vendor id" := by
        simp only [String.append_assoc]
    _ = "WARN Bidder '" ++ code ++ "' has no GVL vendor id" := by rw [hword]

/-- The reports are about the bidders that are left without a vendor id, in their order. -/
theorem Resolves.lines (h : Resolves policy named chosen log) :
    log.map Event.line = (chosen.filter fun b => b.vendor = none).map
      fun b => "WARN Bidder '" ++ b.code ++ "' has no GVL vendor id" := by
  obtain ⟨-, rfl⟩ := h.eq
  rw [unregistered, List.map_map]
  exact List.map_congr_left fun b _ => line_unregisteredBidder b.code

/-! ## Every bidder of the policy -/

/-- A list of exactly the codes that the policy maps to a vendor id, in ascending order. -/
structure ListsCodes (policy : Policy) (codes : List String) : Prop where
  ascending : codes.Pairwise (· < ·)
  mem_iff : ∀ code, code ∈ codes ↔ ∃ v, policy.bidders.find? code = some v

theorem listsCodes_keys (policy : Policy) : policy.ListsCodes policy.bidders.keys := by
  refine ⟨List.pairwise_map.2 policy.bidders.ascending, fun code => ?_⟩
  simp only [OrderedMap.keys, List.mem_map, OrderedMap.find?_eq_some_iff, Prod.exists,
    exists_and_right, exists_eq_right]

/-- There is one such list. -/
theorem ListsCodes.eq_keys {codes : List String} (h : policy.ListsCodes codes) :
    codes = policy.bidders.keys := by
  have hkeys := policy.listsCodes_keys
  exact h.ascending.eq_of_mem_iff hkeys.ascending fun code =>
    (h.mem_iff code).trans (hkeys.mem_iff code).symm

/-- The bidders of the policy are those of its codes, in ascending order. -/
theorem registered_eq_map {codes : List String} (h : policy.ListsCodes codes) :
    policy.registered = codes.map fun code => ⟨code, policy.bidders.find? code⟩ := by
  rw [h.eq_keys, registered, OrderedMap.keys, List.map_map]
  refine List.map_congr_left fun entry hentry => ?_
  rw [Function.comp_apply, OrderedMap.find?_eq_some_iff.2 hentry]

theorem roster_nil : policy.roster [] = policy.registered := rfl

theorem register_of_mem_registered {b : Bidder} (h : b ∈ policy.registered) :
    policy.register b = b := by
  obtain ⟨entry, -, rfl⟩ := List.mem_map.1 h
  rfl

/-- Naming every bidder of the policy with its vendor id is naming nobody. -/
theorem roster_registered : policy.roster policy.registered = policy.registered := by
  by_cases h : policy.registered = []
  · rw [h, roster_nil, h]
  · rw [roster_of_ne_nil h]
    exact (List.map_congr_left fun _ => register_of_mem_registered).trans (List.map_id' _)

/-- So is naming every code of the policy. -/
theorem roster_codes {codes : List String} (h : policy.ListsCodes codes) :
    policy.roster (codes.map fun code => ⟨code, none⟩) = policy.registered := by
  cases codes with
  | nil => rfl
  | cons code codes =>
    rw [roster_of_ne_nil (by simp), List.map_map, registered_eq_map h]
    rfl

/-- No bidder of the policy is without a vendor id. -/
theorem unregistered_registered : unregistered policy.registered = [] := by
  rw [unregistered, List.map_eq_nil_iff, List.filter_eq_nil_iff]
  intro b hb
  obtain ⟨entry, -, rfl⟩ := List.mem_map.1 hb
  simp

end Policy

namespace CommandLine

/-- A run goes on from its first step only with what that step results in. -/
theorem Run.bind_congr {α β : Type} {x : Run α} {f g : α → Run β}
    (h : ∀ a, x.result = .ok a → f a = g a) : x >>= f = x >>= g := by
  obtain ⟨log, result⟩ := x
  cases result with
  | error fault => rfl
  | ok a => simp only [Bind.bind, Run.logAfter, Except.bind, h a rfl]

variable {files : Files} {environment : List Variable} {verbose : Bool}

/-- A run depends on the named bidders only through the bidders of the auction: requests that are
alike otherwise print and report the same. -/
theorem enforce_congr_roster (request : EnforcementRequest) {policy : Policy}
    (hpolicy : (loadPolicy files environment verbose request.file).result = .ok policy)
    {bidders : List Bidder} (h : policy.roster bidders = policy.roster request.bidders) :
    enforce files environment verbose { request with bidders := bidders } =
      enforce files environment verbose request := by
  rw [enforce, enforce, permissions, permissions]
  congr 1
  refine Run.bind_congr fun loaded hloaded => ?_
  obtain rfl : policy = loaded := Except.ok.inj (hpolicy.symm.trans hloaded)
  simp only [Policy.rosterLog_eq, h]

end CommandLine

namespace Policy

open CommandLine in
/-- There are three ways to ask for every bidder of the policy: naming nobody, naming each code that
it maps, and naming each code with its id, both in ascending order. They choose the same bidders
without a report, so an auction gives them the same permissions, and a whole run prints and reports
the same. When some bidders are named, each keeps its place, its code and the id that it was given;
one without an id takes the one that the policy has for its code, if any; each that is left without
an id is reported in turn; and choosing the chosen bidders again chooses and reports the same. -/
theorem roster_selects (policy : Policy) :
    (∀ codes, policy.ListsCodes codes → ∀ named,
      (named = [] ∨ named = (codes.map fun code => ⟨code, none⟩) ∨
        named = codes.map fun code => ⟨code, policy.bidders.find? code⟩) →
      policy.roster named = policy.registered ∧ policy.rosterLog named = [] ∧
      (∀ applies consent source,
        policy.enforceRequest applies consent source (policy.roster named) =
          policy.enforceRequest applies consent source policy.registered) ∧
      ∀ files environment verbose (request : EnforcementRequest),
        (loadPolicy files environment verbose request.file).result = .ok policy →
        CommandLine.enforce files environment verbose { request with bidders := named } =
          CommandLine.enforce files environment verbose { request with bidders := [] }) ∧
    ∀ named, named ≠ [] →
      Resolves policy named (policy.roster named) (policy.rosterLog named) ∧
      List.Forall₂ (fun b c : Bidder => c.code = b.code ∧ (∀ v ∈ b.vendor, c.vendor = some v) ∧
        (b.vendor = none → c.vendor = policy.bidders.find? b.code)) named (policy.roster named) ∧
      policy.roster (policy.roster named) = policy.roster named ∧
      policy.rosterLog (policy.roster named) = policy.rosterLog named ∧
      (policy.rosterLog named).map Event.line =
        ((policy.roster named).filter fun b => b.vendor = none).map
          fun b => "WARN Bidder '" ++ b.code ++ "' has no GVL vendor id" := by
  constructor
  · intro codes hcodes named hnamed
    have hroster : policy.roster named = policy.registered := by
      rcases hnamed with rfl | rfl | rfl
      · exact roster_nil
      · exact roster_codes hcodes
      · rw [← registered_eq_map hcodes, roster_registered]
    refine ⟨hroster, ?_, fun _ _ _ => by rw [hroster], ?_⟩
    · rw [rosterLog_eq, hroster, unregistered_registered]
    · intro files environment verbose request hpolicy
      exact enforce_congr_roster { request with bidders := [] } hpolicy hroster
  · intro named hnamed
    have hresolves : Resolves policy named (policy.roster named) (policy.rosterLog named) :=
      (resolves_iff hnamed).2 ⟨rfl, rfl⟩
    obtain ⟨hroster, hlog⟩ := (resolves_iff (hresolves.ne_nil hnamed)).1 hresolves.again
    exact ⟨hresolves, hresolves.forall₂, hroster, hlog, hresolves.lines⟩

/-- A policy that maps two codes. -/
def twoCodes : Policy := { bidders := .ofList [("rubicon", 52), ("appnexus", 32)] }

/-- The settings file of this policy, and a vendor list. -/
def twoCodesFiles : Files := fun path =>
  if path = "settings.toml" then .ok "[gdpr.bidders]\nrubicon = 52\nappnexus = 32\n"
  else if path = "list.json" then .ok "[1]"
  else .error .missing

open CommandLine in
/-- Naming the two codes is naming nobody. An id that is given stays although the policy has another
one for the code, a code that the policy does not know is reported, and a code may stand twice. -/
theorem roster_selects_twoCodes :
    twoCodes.roster [⟨"appnexus", none⟩, ⟨"rubicon", none⟩] = twoCodes.registered ∧
    CommandLine.enforce twoCodesFiles [] true
        { file := "settings.toml", vendorList := "list.json",
          bidders := [⟨"appnexus", none⟩, ⟨"rubicon", none⟩] } =
      CommandLine.enforce twoCodesFiles [] true
        { file := "settings.toml", vendorList := "list.json" } ∧
    Resolves twoCodes [⟨"rubicon", some 9⟩, ⟨"house", none⟩, ⟨"rubicon", none⟩]
      [⟨"rubicon", some 9⟩, ⟨"house", none⟩, ⟨"rubicon", some 52⟩]
      [.unregisteredBidder "house"] := by
  obtain ⟨hall, hsome⟩ := twoCodes.roster_selects
  have hcodes : twoCodes.ListsCodes ["appnexus", "rubicon"] := twoCodes.listsCodes_keys
  have hload : (loadPolicy twoCodesFiles [] true "settings.toml").result = .ok twoCodes := by
    decide +kernel
  obtain ⟨hroster, -, -, hrun⟩ := hall _ hcodes _ (.inr (.inl rfl))
  exact ⟨hroster, hrun twoCodesFiles [] true ⟨"settings.toml", "list.json", none, [], none, false⟩
    hload, (hsome _ (List.cons_ne_nil _ _)).1⟩

end Policy

end ConsentGate
