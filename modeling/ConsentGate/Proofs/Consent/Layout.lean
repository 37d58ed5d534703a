import ConsentGate.Consent
import ConsentGate.Enforcement
import Mathlib.Logic.Relation

/-!
# The layout of restriction entries

The first entry that covers a purpose and a vendor decides what the publisher imposes on them. Where
no two entries contradict each other, that is what any of the covering entries imposes, so that
only what the entries say together counts: their order, the sharing of vendors among entries that
say the same, and entries without vendors do not.

Results:

* `consistent_iff`: entries are consistent exactly when they impose one type at most.
* `Relays.imposes_iff`, `imposes_iff_of_relays`: a change of layout, and any run of changes, leaves
  what the entries impose.
* `Consent.publisherRestriction_eq_some_iff`: consistent entries answer with what they impose.
* `Consent.enforce_of_relays`: enforcement does not see the layout of consistent entries.
-/

namespace ConsentGate

/-! ## What entries impose -/

/-- Some entry imposes a type on a vendor for a purpose. -/
def Imposes (entries : List PublisherRestriction) (id : PurposeId) (v : VendorId)
    (type : RestrictionType) : Prop :=
  ∃ entry ∈ entries, entry.purposeId = id ∧ v ∈ entry.vendorIds ∧ entry.type = type

/-- No two entries for one purpose have different types and a common vendor. -/
def Consistent (entries : List PublisherRestriction) : Prop :=
  ∀ a ∈ entries, ∀ b ∈ entries, a.purposeId = b.purposeId → a.type ≠ b.type →
    ¬ ∃ v, v ∈ a.vendorIds ∧ v ∈ b.vendorIds

/-- Consistent entries impose one type at most on a vendor for a purpose. -/
theorem consistent_iff {entries : List PublisherRestriction} :
    Consistent entries ↔
      ∀ id v t t', Imposes entries id v t → Imposes entries id v t' → t = t' := by
  constructor
  · rintro h id v t t' ⟨a, ha, rfl, hva, rfl⟩ ⟨b, hb, hid, hvb, rfl⟩
    exact Decidable.byContradiction fun hne => h a ha b hb hid.symm hne ⟨v, hva, hvb⟩
  · rintro h a ha b hb hid hne ⟨v, hva, hvb⟩
    exact hne (h a.purposeId v a.type b.type ⟨a, ha, rfl, hva, rfl⟩ ⟨b, hb, hid.symm, hvb, rfl⟩)

/-! ## Changes of layout -/

/-- Entries that say together what one entry says: each for its purpose and with its type, and all
of them for its vendors. Vendors may stand in several of them. -/
structure PublisherRestriction.SplitsInto (entry : PublisherRestriction)
    (parts : List PublisherRestriction) : Prop where
  purposeId : ∀ part ∈ parts, part.purposeId = entry.purposeId
  type : ∀ part ∈ parts, part.type = entry.type
  vendorIds : ∀ v, v ∈ entry.vendorIds ↔ ∃ part ∈ parts, v ∈ part.vendorIds

/-- One change of layout. -/
inductive Relays : List PublisherRestriction → List PublisherRestriction → Prop
  | permute {as bs : List PublisherRestriction} (h : as.Perm bs) : Relays as bs
  | split {before after parts : List PublisherRestriction} {entry : PublisherRestriction}
    (h : entry.SplitsInto parts) : Relays (before ++ entry :: after) (before ++ parts ++ after)
  | merge {before after parts : List PublisherRestriction} {entry : PublisherRestriction}
    (h : entry.SplitsInto parts) : Relays (before ++ parts ++ after) (before ++ entry :: after)
  | addEmpty {before after : List PublisherRestriction} {entry : PublisherRestriction}
    (h : entry.vendorIds = ∅) : Relays (before ++ after) (before ++ entry :: after)

section Layout

variable {as bs before after parts : List PublisherRestriction} {entry : PublisherRestriction}
  {id : PurposeId} {v : VendorId} {t : RestrictionType}

theorem imposes_append :
    Imposes (as ++ bs) id v t ↔ Imposes as id v t ∨ Imposes bs id v t := by
  simp only [Imposes, List.mem_append, or_and_right, exists_or]

theorem imposes_cons :
    Imposes (entry :: as) id v t ↔ Imposes [entry] id v t ∨ Imposes as id v t := by
  rw [← imposes_append, List.singleton_append]

/-- An entry imposes what the entries that it is split into impose. -/
theorem PublisherRestriction.SplitsInto.imposes_iff (h : entry.SplitsInto parts) :
    Imposes parts id v t ↔ Imposes [entry] id v t := by
  constructor
  · rintro ⟨part, hpart, rfl, hv, rfl⟩
    exact ⟨entry, List.mem_singleton.2 rfl, (h.purposeId part hpart).symm,
      (h.vendorIds v).2 ⟨part, hpart, hv⟩, (h.type part hpart).symm⟩
  · rintro ⟨_, hentry, rfl, hv, rfl⟩
    obtain rfl := List.mem_singleton.1 hentry
    obtain ⟨part, hpart, hpartv⟩ := (h.vendorIds v).1 hv
    exact ⟨part, hpart, h.purposeId part hpart, hpartv, h.type part hpart⟩

theorem not_imposes_of_empty (h : entry.vendorIds = ∅) : ¬ Imposes [entry] id v t := by
  rintro ⟨_, hentry, -, hv, -⟩
  rw [List.mem_singleton.1 hentry, h] at hv
  exact OrderedSet.not_mem_empty v hv

/-- A change of layout leaves what the entries impose. -/
theorem Relays.imposes_iff (h : Relays as bs) : Imposes bs id v t ↔ Imposes as id v t := by
  cases h with
  | permute h => simp only [Imposes, h.mem_iff]
  | split h | merge h =>
    rw [List.append_assoc, imposes_append, imposes_append, imposes_append, imposes_cons,
      h.imposes_iff]
  | addEmpty h =>
    rw [imposes_append, imposes_append, imposes_cons, or_iff_right (not_imposes_of_empty h)]

/-- Any run of changes does so, by induction on the run. -/
theorem imposes_iff_of_relays (h : Relation.ReflTransGen Relays as bs) :
    Imposes bs id v t ↔ Imposes as id v t := by
  induction h with
  | refl => exact Iff.rfl
  | tail _ hstep ih => exact hstep.imposes_iff.trans ih

theorem Consistent.of_relays (hconsistent : Consistent as)
    (h : Relation.ReflTransGen Relays as bs) : Consistent bs := by
  rw [consistent_iff] at hconsistent ⊢
  intro id v t t' ht ht'
  exact hconsistent id v t t' ((imposes_iff_of_relays h).1 ht) ((imposes_iff_of_relays h).1 ht')

end Layout

namespace Consent

/-! ## Answers -/

/-- Consistent entries answer with what they impose. -/
theorem publisherRestriction_eq_some_iff {c : Consent} (h : Consistent c.publisherRestrictions)
    {p : Purpose} {v : VendorId} {t : RestrictionType} :
    c.publisherRestriction p v = some t ↔ Imposes c.publisherRestrictions p.id v t := by
  have hfound {u : RestrictionType} (hu : c.publisherRestriction p v = some u) :
      Imposes c.publisherRestrictions p.id v u := by
    obtain ⟨entry, hentry, rfl⟩ := Option.map_eq_some_iff.1 hu
    have hcovers : entry.covers p v = true := by simpa using List.find?_some hentry
    simp only [PublisherRestriction.covers, Bool.and_eq_true, beq_iff_eq,
      OrderedSet.contains_iff] at hcovers
    exact ⟨entry, List.mem_of_find?_eq_some hentry, hcovers.1, hcovers.2, rfl⟩
  refine ⟨hfound, fun himposes => ?_⟩
  obtain ⟨entry, hentry, hid, hv, htype⟩ := himposes
  have hcovers : entry.covers p v = true := by simp [PublisherRestriction.covers, hid, hv]
  have hsome : (c.publisherRestrictions.find? fun entry => entry.covers p v).isSome :=
    List.find?_isSome.2 ⟨entry, hentry, hcovers⟩
  obtain ⟨first, hfirst⟩ := Option.isSome_iff_exists.1 hsome
  have hanswer : c.publisherRestriction p v = some first.type := by
    rw [publisherRestriction, hfirst, Option.map_some]
  rw [hanswer, consistent_iff.1 h p.id v first.type t (hfound hanswer)
    ⟨entry, hentry, hid, hv, htype⟩]

/-- The answers of consistent entries survive changes of their layout. -/
theorem publisherRestriction_of_relays {c : Consent} {entries : List PublisherRestriction}
    (hconsistent : Consistent c.publisherRestrictions)
    (h : Relation.ReflTransGen Relays c.publisherRestrictions entries) (p : Purpose)
    (v : VendorId) :
    { c with publisherRestrictions := entries }.publisherRestriction p v =
      c.publisherRestriction p v := by
  have hentries : Consistent { c with publisherRestrictions := entries }.publisherRestrictions :=
    hconsistent.of_relays h
  apply Option.ext
  intro t
  rw [publisherRestriction_eq_some_iff hentries, publisherRestriction_eq_some_iff hconsistent]
  exact imposes_iff_of_relays h

/-- A consent with further restrictions, each added behind those that are there. -/
def withPublisherRestrictions (c : Consent)
    (additions : List (Purpose × RestrictionType × List VendorId)) : Consent :=
  additions.foldl (fun c (p, type, vendorIds) => c.withPublisherRestriction p type vendorIds) c

/-- Whatever is added, an answer that is there stays, by induction on the additions. -/
theorem publisherRestriction_withPublisherRestrictions
    (additions : List (Purpose × RestrictionType × List VendorId)) {c : Consent} {p : Purpose}
    {v : VendorId} {t : RestrictionType} (h : c.publisherRestriction p v = some t) :
    (c.withPublisherRestrictions additions).publisherRestriction p v = some t := by
  unfold withPublisherRestrictions
  induction additions generalizing c with
  | nil => exact h
  | cons addition additions ih => exact ih (publisherRestriction_append h _)

/-- Where the restrictions of a consent do not contradict each other, their layout does not matter:
permuting the entries, splitting or merging entries of one purpose and type, and adding entries
without vendors, any number of times, changes no answer and nothing in enforcement. To any consent,
consistent or not, restrictions may be added without changing an answer that is there. -/
theorem enforce_of_relays {c : Consent} {entries : List PublisherRestriction}
    (hconsistent : Consistent c.publisherRestrictions)
    (h : Relation.ReflTransGen Relays c.publisherRestrictions entries) :
    (∀ p v, { c with publisherRestrictions := entries }.publisherRestriction p v =
        c.publisherRestriction p v) ∧
      (∀ (policy : Policy) source bidders,
        policy.enforce { c with publisherRestrictions := entries }.signal source bidders =
          policy.enforce c.signal source bidders) ∧
      ∀ (d : Consent) additions p v t, d.publisherRestriction p v = some t →
        (d.withPublisherRestrictions additions).publisherRestriction p v = some t := by
  have hanswers := publisherRestriction_of_relays hconsistent h
  refine ⟨hanswers, fun policy source bidders => ?_, fun d additions p v t ht => ?_⟩
  · have hsignal : { c with publisherRestrictions := entries }.signal = c.signal := by
      have hrestriction : { c with publisherRestrictions := entries }.publisherRestriction =
          c.publisherRestriction := funext fun p => funext (hanswers p)
      simp only [signal, hrestriction]
    rw [hsignal]
  · exact publisherRestriction_withPublisherRestrictions additions ht

/-- A consent with one restriction of two vendors and another one for a different purpose. -/
def bundled : Consent where
  purposeConsents := .ofList [2]
  vendorConsents := .ofList [52]
  publisherRestrictions :=
    [⟨2, .requireConsent, .ofList [7, 52]⟩, ⟨7, .notAllowed, .ofList [7]⟩]

/-- The restrictions in two overlapping entries, in another order, behind an entry that would forbid
purpose 2 and has no vendors. -/
def scattered : List PublisherRestriction :=
  [⟨2, .notAllowed, ∅⟩, ⟨7, .notAllowed, .ofList [7]⟩, ⟨2, .requireConsent, .ofList [7]⟩,
    ⟨2, .requireConsent, .ofList [7, 52]⟩]

/-- The scattered entries are a layout of the bundled ones, so that the default policy leaves a
vendor the same flags, whatever the vendor list says. -/
theorem enforce_of_relays_scattered :
    Consistent bundled.publisherRestrictions ∧
      Relation.ReflTransGen Relays bundled.publisherRestrictions scattered ∧
      ∀ source, ({} : Policy).enforce { bundled with publisherRestrictions := scattered }.signal
          source [⟨"rubicon", some 52⟩] =
        ({} : Policy).enforce bundled.signal source [⟨"rubicon", some 52⟩] := by
  have hconsistent : Consistent bundled.publisherRestrictions := by
    simp [Consistent, bundled]
  have hsplits : PublisherRestriction.SplitsInto ⟨2, .requireConsent, .ofList [7, 52]⟩
      [⟨2, .requireConsent, .ofList [7]⟩, ⟨2, .requireConsent, .ofList [7, 52]⟩] :=
    ⟨by simp, by simp, by simp⟩
  have hsplit : Relays bundled.publisherRestrictions _ :=
    @Relays.split [] [⟨7, .notAllowed, .ofList [7]⟩] _ _ hsplits
  have hpermute : Relays
      [⟨2, .requireConsent, .ofList [7]⟩, ⟨2, .requireConsent, .ofList [7, 52]⟩,
        ⟨7, .notAllowed, .ofList [7]⟩]
      [⟨7, .notAllowed, .ofList [7]⟩, ⟨2, .requireConsent, .ofList [7]⟩,
        ⟨2, .requireConsent, .ofList [7, 52]⟩] :=
    .permute (by decide)
  have hempty : Relays _ scattered := @Relays.addEmpty [] _ _ rfl
  have hlayout := ((Relation.ReflTransGen.single hsplit).tail hpermute).tail hempty
  exact ⟨hconsistent, hlayout,
    fun source => (enforce_of_relays hconsistent hlayout).2.1 {} source _⟩

end Consent

end ConsentGate
