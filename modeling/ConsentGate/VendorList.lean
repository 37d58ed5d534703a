import ConsentGate.Ordered.Map
import ConsentGate.Purpose

/-!
# Vendor lists

A vendor list publishes, for each registered vendor, the grounds on which it processes data for each
purpose. A vendor that is not listed declares nothing, so that full enforcement denies it. These are
`VendorDeclaration`, `VendorListProvider` and `VendorList` of the specification, section 3.

Results:

* `VendorList.Consistent.ofDeclarations`: a list made of declarations keeps key and id together.
* `VendorList.find?_ofDeclarations`: of several declarations with one id the last stays.
-/

namespace ConsentGate

/-- The grounds that a vendor declares (`VendorDeclaration`). -/
structure Declaration where
  id : VendorId
  /-- The purposes for which the vendor relies on consent. -/
  purposes : OrderedSet PurposeId := ∅
  /-- The purposes for which the vendor relies on legitimate interest. -/
  interestPurposes : OrderedSet PurposeId := ∅
  /-- The purposes for which a publisher may switch the ground. -/
  flexiblePurposes : OrderedSet PurposeId := ∅
  specialFeatures : OrderedSet FeatureId := ∅
  deriving DecidableEq

namespace Declaration

/-- The declaration of a vendor that declares nothing (`empty`). -/
def none (id : VendorId) : Declaration := { id }

/-- Whether the vendor relies on consent for a purpose (`declares_consent`). -/
def consent (d : Declaration) (p : Purpose) : Bool := d.purposes.contains p.id

/-- Whether the vendor relies on legitimate interest for a purpose (`declares_legitimate_interest`).
-/
def interest (d : Declaration) (p : Purpose) : Bool := d.interestPurposes.contains p.id

/-- Whether a publisher may switch the vendor's ground for a purpose (`is_flexible`). -/
def flexible (d : Declaration) (p : Purpose) : Bool := d.flexiblePurposes.contains p.id

end Declaration

/-- Anything that knows the declarations of some vendors (`VendorListProvider`). -/
abbrev DeclarationSource := VendorId → Option Declaration

/-- The declaration of a vendor (`declaration_for`): what the source knows, and nothing for a vendor
that it does not know. A bidder without vendor id declares nothing, under id 0. -/
def DeclarationSource.resolve (source : DeclarationSource) (vendor : Option VendorId) :
    Declaration :=
  (vendor.bind source).getD (.none (vendor.getD 0))

/-- A published vendor list (`VendorList`). -/
structure VendorList where
  version : UInt32
  policyVersion : UInt32 := 0
  vendors : OrderedMap VendorId Declaration := ∅
  deriving DecidableEq

instance : Inhabited VendorList := ⟨{ version := 0 }⟩

namespace VendorList

/-- The declarations that a list holds. -/
def source (l : VendorList) : DeclarationSource := l.vendors.find?

/-- The list of some declarations (`from_declarations`); of several with one id the last stays. -/
def ofDeclarations (version : UInt32) (declarations : List Declaration) : VendorList where
  version := version
  vendors := .ofList (declarations.map fun d => (d.id, d))

/-- The first entry, by ascending key, whose id differs from its key. -/
def mismatch? (l : VendorList) : Option (VendorId × Declaration) :=
  l.vendors.entries.find? fun e => e.1 ≠ e.2.id

/-- Every entry stands under its own id. -/
def Consistent (l : VendorList) : Prop := ∀ e ∈ l.vendors.entries, e.1 = e.2.id

theorem consistent_iff_mismatch? {l : VendorList} : l.Consistent ↔ l.mismatch? = Option.none := by
  simp [Consistent, mismatch?]

end VendorList

theorem OrderedMap.find?_foldl_insert {κ ν : Type} [LT κ] [DecidableLT κ] [Ascends κ]
    [DecidableEq κ] (es : List (κ × ν)) (m : OrderedMap κ ν) (k : κ) :
    (es.foldl (fun m e => m.insert e.1 e.2) m).find? k =
      (((es.reverse.find? fun e => e.1 = k).map Prod.snd).or (m.find? k)) := by
  induction es generalizing m with
  | nil => simp
  | cons e es ih =>
    rw [List.foldl_cons, ih, find?_insert, List.reverse_cons, List.find?_append]
    by_cases h : e.1 = k
    · cases hes : es.reverse.find? (fun e => e.1 = k) <;> simp [h]
    · cases hes : es.reverse.find? (fun e => e.1 = k) <;> simp [h]

namespace VendorList

/-- Of several declarations with one id the last stays. -/
theorem find?_ofDeclarations (version : UInt32) (ds : List Declaration) (v : VendorId) :
    (ofDeclarations version ds).source v = ds.reverse.find? fun d => d.id = v := by
  simp only [source, ofDeclarations, OrderedMap.ofList, OrderedMap.find?_foldl_insert,
    OrderedMap.find?_empty, Option.or_none, ← List.map_reverse, List.find?_map, Option.map_map]
  -- a declaration stands under its id, so that taking it from its entry gives it back
  exact congrFun Option.map_id _

/-- A list made of declarations keeps key and id together. -/
theorem Consistent.ofDeclarations (version : UInt32) (ds : List Declaration) :
    (VendorList.ofDeclarations version ds).Consistent := by
  rintro ⟨k, d⟩ he
  have h : (VendorList.ofDeclarations version ds).source k = some d :=
    OrderedMap.find?_eq_some_iff.2 he
  rw [find?_ofDeclarations] at h
  simpa [eq_comm] using List.find?_some h

end VendorList

end ConsentGate
