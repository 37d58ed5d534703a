import ConsentGate.Json.Record
import ConsentGate.Policy.Validation

/-!
# Policy documents

A policy as a JSON record, with every field of `GdprConfig` written out.
-/

namespace ConsentGate

/-- The document of a purpose policy. -/
def PurposePolicy.toJson (policy : PurposePolicy) : Json :=
  .record
    [("enforce_purpose", .ofString policy.strictness.key),
      ("enforce_vendors", .bool policy.checksVendors),
      ("vendor_exceptions", .ofSet .ofString policy.exceptions)]

/-- The document of a special feature policy. -/
def FeaturePolicy.toJson (policy : FeaturePolicy) : Json :=
  .record
    [("enforce", .bool policy.enforced), ("vendor_exceptions", .ofSet .ofString policy.exceptions)]

/-- The document of a policy. -/
def Policy.toJson (policy : Policy) : Json :=
  .record
    [("enabled", .bool policy.enabled), ("default_value", .bool policy.appliesByDefault),
      ("purposes", .record (Purpose.all.map fun p => (p.key, (policy.purposes.get p).toJson))),
      ("special_features", .record [("sf1", policy.location.toJson)]),
      ("purpose_one_treatment_interpretation", .ofString policy.treatment.key),
      ("bidders", .record (policy.bidders.entries.map fun (code, id) => (code, .ofWord id)))]

end ConsentGate
