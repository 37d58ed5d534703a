import ConsentGate.Decimal.Word
import ConsentGate.Permission
import ConsentGate.Text.Blank

/-!
# Bidders as text

A bidder is written as its code, or as code and vendor id with a colon between them. The first colon
ends the code, and blank characters around either part are passed over. This is
`parse_bidder_arg`, for the `--bidder` argument of the specification, section 6.
-/

namespace ConsentGate

/-- Why a text names no bidder. -/
inductive BidderFault where
  /-- What follows the colon is no vendor id. -/
  | vendor (text : String) (fault : WordFault)
  /-- There is no code. -/
  | noCode (text : String)
  deriving DecidableEq

/-- The message for a text that names no bidder. -/
def BidderFault.message : BidderFault → String
  | vendor text fault => "invalid vendor id in '" ++ text ++ "': " ++ fault.text
  | noCode text => "missing bidder code in '" ++ text ++ "'"

namespace Bidder

/-- The vendor id that a text gives after its first colon, if it has a colon. -/
def vendorOf (text : String) : Except BidderFault (Option VendorId) :=
  match text.toList.dropWhile (· ≠ ':') with
  | [] => .ok none
  | _ :: id => ((Decimal.readWord (Text.trim id)).mapError (.vendor text)).map some

/-- The code that a text gives before its first colon. -/
def codeOf (text : String) : List Char := Text.trim (text.toList.takeWhile (· ≠ ':'))

/-- The bidder that a text names (`parse_bidder_arg`). A vendor id that cannot be read is reported
before a missing code. -/
def ofText (text : String) : Except BidderFault Bidder := do
  let vendor ← vendorOf text
  match codeOf text with
  | [] => .error (.noCode text)
  | code => .ok ⟨.ofList code, vendor⟩

/-- The text that names a bidder. -/
def toText (b : Bidder) : String :=
  match b.vendor with
  | none => b.code
  | some v => b.code ++ ":" ++ toString v.toNat

end Bidder

end ConsentGate
