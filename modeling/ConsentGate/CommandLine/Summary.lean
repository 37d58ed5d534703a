import ConsentGate.Audit
import ConsentGate.Settings.Canonical
import ConsentGate.Text.Lines
import ConsentGate.Text.Listing

/-!
# Summary of settings

What the check of a settings file prints: a few facts, and on request every purpose policy and the
canonical text. This is what `validate` prints, the summary of the specification, section 6.
-/

namespace ConsentGate

/-- The line of a purpose policy. -/
def PurposePolicy.summary (policy : PurposePolicy) (p : Purpose) : String :=
  "  - " ++ p.display ++ ": " ++ policy.strictness.name ++ ", enforce_vendors=" ++
    boolText policy.checksVendors ++ ", exceptions=" ++ Text.listedSet policy.exceptions

/-- The line of the policy for special feature 1. -/
def FeaturePolicy.summary (policy : FeaturePolicy) : String :=
  "  - special feature 1: enforce=" ++ boolText policy.enforced ++ ", exceptions=" ++
    Text.listedSet policy.exceptions

namespace Policy

/-- The facts about a policy from a file. -/
def summary (policy : Policy) (file : String) : List String :=
  ["Configuration is valid", "  File: " ++ file,
    "  GDPR enforcement: " ++ (if policy.enabled then "enabled" else "disabled"),
    "  GDPR applies by default: " ++ boolText policy.appliesByDefault,
    "  Mapped bidders: " ++ toString policy.bidders.size]

/-- Everything that a policy says. -/
def details (policy : Policy) : List String :=
  ["", "Purposes:"] ++ (Purpose.all.map fun p => (policy.purposes.get p).summary p) ++
    [policy.location.summary, "", "Merged configuration:", "---"] ++
    Text.lines policy.canonicalText ++ ["---"]

end Policy

end ConsentGate
