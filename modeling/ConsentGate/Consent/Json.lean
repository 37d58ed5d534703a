import ConsentGate.Consent
import ConsentGate.Fault
import ConsentGate.Json.Printer
import ConsentGate.Json.Reader
import ConsentGate.Json.Record

/-!
# Consent documents

A consent is written as a JSON record. Every field may be left out; in a publisher restriction the
purpose and the type are required. A restriction on a purpose that does not exist is a fault of its
own. This is `from_json` of `TcfConsent`, with the faults of the specification, section 7.
-/

namespace ConsentGate

namespace PublisherRestriction

/-- The fields of a publisher restriction, in order. -/
def fieldNames : List String := ["purpose_id", "restriction_type", "vendor_ids"]

/-- The restriction that a document writes. -/
def ofJson? (document : Json) : Option PublisherRestriction := do
  let field ← document.fields? fieldNames
  let purposeId ← Json.required (field "purpose_id") Json.byte?
  let type ← Json.required (field "restriction_type") fun d =>
    d.variant?.bind RestrictionType.ofKey?
  let vendorIds ← Json.optional (field "vendor_ids") (Json.set? Json.word?) ∅
  return { purposeId, type, vendorIds }

/-- The document of a restriction. -/
def toJson (entry : PublisherRestriction) : Json :=
  .record
    [("purpose_id", .ofByte entry.purposeId), ("restriction_type", .ofString entry.type.key),
      ("vendor_ids", .ofSet .ofWord entry.vendorIds)]

end PublisherRestriction

namespace Consent

/-- The fields of a consent, in order. -/
def fieldNames : List String :=
  ["purpose_consents", "purpose_legitimate_interests", "vendor_consents",
    "vendor_legitimate_interests", "special_feature_opt_ins", "purpose_one_treatment",
    "publisher_restrictions"]

/-- The consent that a document writes. -/
def ofJson? (document : Json) : Option Consent := do
  let field ← document.fields? fieldNames
  let purposeConsents ← Json.optional (field "purpose_consents") (Json.set? Json.byte?) ∅
  let purposeInterests ←
    Json.optional (field "purpose_legitimate_interests") (Json.set? Json.byte?) ∅
  let vendorConsents ← Json.optional (field "vendor_consents") (Json.set? Json.word?) ∅
  let vendorInterests ← Json.optional (field "vendor_legitimate_interests") (Json.set? Json.word?) ∅
  let featureOptIns ← Json.optional (field "special_feature_opt_ins") (Json.set? Json.byte?) ∅
  let purposeOneTreatment ← Json.optional (field "purpose_one_treatment") Json.bool? false
  let publisherRestrictions ←
    Json.optional (field "publisher_restrictions") (Json.list? PublisherRestriction.ofJson?) []
  return { purposeConsents, purposeInterests, vendorConsents, vendorInterests, featureOptIns,
           purposeOneTreatment, publisherRestrictions }

/-- The document of a consent. -/
def toJson (c : Consent) : Json :=
  .record
    [("purpose_consents", .ofSet .ofByte c.purposeConsents),
      ("purpose_legitimate_interests", .ofSet .ofByte c.purposeInterests),
      ("vendor_consents", .ofSet .ofWord c.vendorConsents),
      ("vendor_legitimate_interests", .ofSet .ofWord c.vendorInterests),
      ("special_feature_opt_ins", .ofSet .ofByte c.featureOptIns),
      ("purpose_one_treatment", .bool c.purposeOneTreatment),
      ("publisher_restrictions",
        .array (c.publisherRestrictions.map PublisherRestriction.toJson))]

/-- The first purpose id in the publisher restrictions that names no purpose. -/
def unknownPurpose? (c : Consent) : Option PurposeId :=
  (c.publisherRestrictions.map PublisherRestriction.purposeId).find? fun id =>
    (Purpose.ofId? id).isNone

/-- The consent that a text writes (`from_json`). -/
def ofText (text : String) : Except ConsentFault Consent :=
  match (Json.read? text).bind ofJson? with
  | none => .error .malformed
  | some c =>
    match c.unknownPurpose? with
    | some id => .error (.unknownPurpose id)
    | none => .ok c

/-- The text of a consent. -/
def toText (c : Consent) : String := c.toJson.render .compact

end Consent

end ConsentGate
