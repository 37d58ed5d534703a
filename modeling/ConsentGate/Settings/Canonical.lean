import ConsentGate.Policy
import ConsentGate.Toml.Section

/-!
# Canonical settings

A policy is written with every field, in a fixed order: its own values, the ten purposes, special
feature 1 and the bidders by code. This is `to_canonical_toml`, which writes the settings after
overrides.
-/

namespace ConsentGate

open Toml (Section Written)

/-- The values of a purpose policy. -/
def PurposePolicy.written (policy : PurposePolicy) : List (String × Written) :=
  [("enforce_purpose", .text policy.strictness.key),
    ("enforce_vendors", .boolean policy.checksVendors),
    ("vendor_exceptions", .texts policy.exceptions.toList)]

/-- The values of a special feature policy. -/
def FeaturePolicy.written (policy : FeaturePolicy) : List (String × Written) :=
  [("enforce", .boolean policy.enforced), ("vendor_exceptions", .texts policy.exceptions.toList)]

namespace Policy

/-- The sections of a policy. -/
def sections (policy : Policy) : List Section :=
  ⟨["gdpr"],
    [("enabled", .boolean policy.enabled), ("default_value", .boolean policy.appliesByDefault),
      ("purpose_one_treatment_interpretation", .text policy.treatment.key)]⟩ ::
  (Purpose.all.map fun p => ⟨["gdpr", "purposes", p.key], (policy.purposes.get p).written⟩) ++
  [⟨["gdpr", "special_features", "sf1"], policy.location.written⟩,
    ⟨["gdpr", "bidders"], policy.bidders.entries.map fun (code, id) => (code, .number id.toNat)⟩]

/-- The canonical text of a policy (`to_canonical_toml`). -/
def canonicalText (policy : Policy) : String := Section.render policy.sections

end Policy

end ConsentGate
