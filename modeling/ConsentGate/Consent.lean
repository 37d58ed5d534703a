import ConsentGate.Ordered.Set
import ConsentGate.Signal

/-!
# Consents

A consent lists the ids whose bits are set and what the publisher has restricted. It answers as a
signal; an id that is not listed reads as `false`, and of several restriction entries that cover a
purpose and a vendor the first one counts. It is `TcfConsent` of the specification, section 3, and
is built by its six `with_` functions.

Results:

* `Consent.publisherRestriction_append`: appended entries never change an answer that is there.
-/

namespace ConsentGate

/-- One restriction type imposed on a set of vendors for one purpose. -/
structure PublisherRestriction where
  purposeId : PurposeId
  type : RestrictionType
  vendorIds : OrderedSet VendorId
  deriving DecidableEq

/-- Whether an entry speaks about a vendor for a purpose. -/
def PublisherRestriction.covers (entry : PublisherRestriction) (p : Purpose) (v : VendorId) :
    Bool :=
  entry.purposeId == p.id && entry.vendorIds.contains v

/-- A decoded consent (`TcfConsent`). -/
structure Consent where
  purposeConsents : OrderedSet PurposeId := ∅
  purposeInterests : OrderedSet PurposeId := ∅
  vendorConsents : OrderedSet VendorId := ∅
  vendorInterests : OrderedSet VendorId := ∅
  featureOptIns : OrderedSet FeatureId := ∅
  purposeOneTreatment : Bool := false
  publisherRestrictions : List PublisherRestriction := []
  deriving DecidableEq

instance : Inhabited Consent := ⟨{}⟩

namespace Consent

/-- What the publisher imposes on a vendor for a purpose (`publisher_restriction`): the type of the
first entry that covers both. -/
def publisherRestriction (c : Consent) (p : Purpose) (v : VendorId) : Option RestrictionType :=
  (c.publisherRestrictions.find? fun entry => entry.covers p v).map PublisherRestriction.type

/-- The answers of a consent. -/
def signal (c : Consent) : Signal where
  purposeConsent p := c.purposeConsents.contains p.id
  purposeInterest p := c.purposeInterests.contains p.id
  vendorConsent v := c.vendorConsents.contains v
  vendorInterest v := c.vendorInterests.contains v
  featureOptIn f := c.featureOptIns.contains f
  purposeOneTreatment := c.purposeOneTreatment
  publisherRestriction := c.publisherRestriction

/-- The consent with purpose consents added. -/
def withPurposeConsents (c : Consent) (ids : List PurposeId) : Consent :=
  { c with purposeConsents := c.purposeConsents.insertAll ids }

/-- The consent with legitimate interest shown for more purposes. -/
def withPurposeInterests (c : Consent) (ids : List PurposeId) : Consent :=
  { c with purposeInterests := c.purposeInterests.insertAll ids }

/-- The consent with vendor consents added. -/
def withVendorConsents (c : Consent) (ids : List VendorId) : Consent :=
  { c with vendorConsents := c.vendorConsents.insertAll ids }

/-- The consent with legitimate interest shown for more vendors. -/
def withVendorInterests (c : Consent) (ids : List VendorId) : Consent :=
  { c with vendorInterests := c.vendorInterests.insertAll ids }

/-- The consent with special feature opt-ins added. -/
def withFeatureOptIns (c : Consent) (ids : List FeatureId) : Consent :=
  { c with featureOptIns := c.featureOptIns.insertAll ids }

/-- The consent with one more publisher restriction, after those it has. -/
def withPublisherRestriction (c : Consent) (p : Purpose) (type : RestrictionType)
    (vendorIds : List VendorId) : Consent :=
  { c with
    publisherRestrictions := c.publisherRestrictions ++ [⟨p.id, type, .ofList vendorIds⟩] }

/-- Appended entries never change an answer that is there. -/
theorem publisherRestriction_append {c : Consent} {p : Purpose} {v : VendorId} {t : RestrictionType}
    (h : c.publisherRestriction p v = some t) (entries : List PublisherRestriction) :
    { c with publisherRestrictions := c.publisherRestrictions ++ entries }.publisherRestriction p v
      = some t := by
  obtain ⟨entry, hentry, rfl⟩ := Option.map_eq_some_iff.1 h
  simp [publisherRestriction, List.find?_append, hentry]

end Consent

end ConsentGate
