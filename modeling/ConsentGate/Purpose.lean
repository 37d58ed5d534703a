/-!
# Purposes and legal bases

The ten standard purposes for which a vendor may process a user's data, and the grounds on which it
may do so. Purpose 1 and the profiling purposes 3 to 6 need consent; the others may also rest on
legitimate interest. These are `PurposeCode` of the specification, section 3, and the legal-basis
table of section 4.2 with `permitted_legal_bases` and `is_permitted_for`.

Results:

* `Purpose.ofId?_eq_some_iff`: an id names a purpose exactly when it is that purpose's id.
* `Purpose.isSome_ofId?_iff`: the ids that name one are those from 1 to 10.
* `Purpose.mem_all`: the list of all purposes misses none.
-/

namespace ConsentGate

/-- The number under which a purpose is written. -/
abbrev PurposeId := UInt8

/-- The number under which a vendor is registered. -/
abbrev VendorId := UInt32

/-- The number under which a special feature is written. -/
abbrev FeatureId := UInt8

/-- A data-processing purpose (`PurposeCode`). -/
inductive Purpose where
  /-- Store and access information on a device. -/
  | one
  /-- Use limited data to select advertising. -/
  | two
  /-- Create profiles for personalised advertising. -/
  | three
  /-- Use profiles to select personalised advertising. -/
  | four
  /-- Create profiles to personalise content. -/
  | five
  /-- Use profiles to select personalised content. -/
  | six
  /-- Measure advertising performance. -/
  | seven
  /-- Measure content performance. -/
  | eight
  /-- Understand audiences through statistics. -/
  | nine
  /-- Develop and improve services. -/
  | ten
  deriving DecidableEq

namespace Purpose

/-- Every purpose, in the order in which enforcement visits them (`ALL`). -/
def all : List Purpose := [one, two, three, four, five, six, seven, eight, nine, ten]

theorem mem_all (p : Purpose) : p ∈ all := by cases p <;> decide

/-- The id of a purpose, from 1 to 10. -/
def id : Purpose → PurposeId
  | one => 1
  | two => 2
  | three => 3
  | four => 4
  | five => 5
  | six => 6
  | seven => 7
  | eight => 8
  | nine => 9
  | ten => 10

/-- The purpose with an id. -/
def ofId? (i : PurposeId) : Option Purpose := all.find? fun p => p.id = i

/-- An id names a purpose exactly when it is that purpose's id. -/
theorem ofId?_eq_some_iff {i : PurposeId} {p : Purpose} : ofId? i = some p ↔ p.id = i := by
  constructor
  · intro h
    simpa using List.find?_some h
  · rintro rfl
    cases p <;> rfl

/-- The ids of purposes are the numbers from 1 to 10. -/
theorem isSome_ofId?_iff {i : PurposeId} : (ofId? i).isSome ↔ 1 ≤ i ∧ i ≤ 10 := by
  constructor
  · intro h
    obtain ⟨p, hp⟩ := Option.isSome_iff_exists.1 h
    rw [← ofId?_eq_some_iff.1 hp]
    cases p <;> decide
  · rintro ⟨hlow, hhigh⟩
    rw [UInt8.le_iff_toNat_le] at hlow hhigh
    have hcases : i = 1 ∨ i = 2 ∨ i = 3 ∨ i = 4 ∨ i = 5 ∨ i = 6 ∨ i = 7 ∨ i = 8 ∨ i = 9 ∨
        i = 10 := by
      simp only [← UInt8.toNat_inj, UInt8.reduceToNat] at hlow hhigh ⊢
      omega
    rcases hcases with rfl | rfl | rfl | rfl | rfl | rfl | rfl | rfl | rfl | rfl <;> rfl

/-- The word for a purpose. -/
def name : Purpose → String
  | one => "One"
  | two => "Two"
  | three => "Three"
  | four => "Four"
  | five => "Five"
  | six => "Six"
  | seven => "Seven"
  | eight => "Eight"
  | nine => "Nine"
  | ten => "Ten"

/-- The word for a purpose in documents. -/
def key (p : Purpose) : String := "p" ++ toString p.id.toNat

/-- A purpose as it is shown to a reader. -/
def display (p : Purpose) : String := "purpose " ++ toString p.id.toNat

end Purpose

/-- A ground on which a vendor may process data for a purpose (`LegalBasis`). -/
inductive LegalBasis where
  | consent
  | legitimateInterest
  deriving DecidableEq

/-- The grounds that a purpose may rest on (`permitted_legal_bases`). -/
def Purpose.legalBases : Purpose → List LegalBasis
  | .two | .seven | .eight | .nine | .ten => [.consent, .legitimateInterest]
  | .one | .three | .four | .five | .six => [.consent]

/-- Whether a purpose may rest on a ground (`is_permitted_for`). -/
def LegalBasis.permittedFor (basis : LegalBasis) (p : Purpose) : Bool :=
  p.legalBases.contains basis

/-- Consent is a ground for every purpose. -/
theorem LegalBasis.consent_permittedFor (p : Purpose) :
    LegalBasis.consent.permittedFor p = true := by
  cases p <;> rfl

/-- One value for each purpose, under the keys of `Purposes`. -/
structure PerPurpose (α : Type) where
  p1 : α
  p2 : α
  p3 : α
  p4 : α
  p5 : α
  p6 : α
  p7 : α
  p8 : α
  p9 : α
  p10 : α
  deriving DecidableEq

namespace PerPurpose

variable {α : Type}

/-- The value of a purpose. -/
def get (v : PerPurpose α) : Purpose → α
  | .one => v.p1
  | .two => v.p2
  | .three => v.p3
  | .four => v.p4
  | .five => v.p5
  | .six => v.p6
  | .seven => v.p7
  | .eight => v.p8
  | .nine => v.p9
  | .ten => v.p10

/-- The family with the values of a function. -/
def ofFn (f : Purpose → α) : PerPurpose α :=
  ⟨f .one, f .two, f .three, f .four, f .five, f .six, f .seven, f .eight, f .nine, f .ten⟩

/-- The family with one value replaced. -/
def set (v : PerPurpose α) (p : Purpose) (a : α) : PerPurpose α :=
  ofFn fun q => if q = p then a else v.get q

@[simp] theorem get_ofFn (f : Purpose → α) (p : Purpose) : (ofFn f).get p = f p := by
  cases p <;> rfl

@[simp] theorem get_set (v : PerPurpose α) (p q : Purpose) (a : α) :
    (v.set p a).get q = if q = p then a else v.get q := by
  simp [set]

/-- A family is determined by its values. -/
theorem ext {v w : PerPurpose α} (h : ∀ p, v.get p = w.get p) : v = w := by
  have hget : v.get = w.get := funext h
  exact congrArg ofFn hget

end PerPurpose

end ConsentGate
