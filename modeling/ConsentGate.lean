import ConsentGate.Main
import ConsentGate.Policy.Json
import ConsentGate.Proofs.Consent.RoundTrip
import ConsentGate.Proofs.Influence
import ConsentGate.Proofs.Monotonicity
import ConsentGate.Proofs.Run
import ConsentGate.Proofs.Settings.RoundTrip
import ConsentGate.Proofs.VendorList.RoundTrip
import ConsentGate.Proofs.AuditTrail
import ConsentGate.Proofs.CommandLine.Refinement
import ConsentGate.Proofs.Settings.Names
import ConsentGate.Proofs.Settings.Fields
import ConsentGate.Proofs.Settings.Overrides
import ConsentGate.Proofs.Consent.Layout
import ConsentGate.Proofs.Switching
import ConsentGate.Proofs.Settings.Rejection
import ConsentGate.Proofs.Settings.Remerging
import ConsentGate.Proofs.Toml.Documents
import ConsentGate.Proofs.Settings.Omission
import ConsentGate.Proofs.Settings.Defaults
import ConsentGate.Proofs.Bidder.Naming
import ConsentGate.Proofs.Bidder.Selection
import ConsentGate.Proofs.Editing
