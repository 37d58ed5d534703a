import ConsentGate.Audit
import ConsentGate.Fault
import ConsentGate.Json.Printer
import ConsentGate.Json.Reader
import ConsentGate.Json.Record
import ConsentGate.VendorList

/-!
# Vendor list documents

A vendor list is written as a JSON record whose vendors are an object with vendor ids as names. An
id is written there in plain digits, without escapes and leading zeros; of two entries with one id
the later counts. An entry must stand under its own id. This is `from_json` of `VendorList`, with
the faults of the specification, section 7.
-/

namespace ConsentGate

namespace Declaration

/-- The fields of a declaration, in order. -/
def fieldNames : List String :=
  ["id", "purposes", "legIntPurposes", "flexiblePurposes", "specialFeatures"]

/-- The declaration that a document writes. -/
def ofJson? (document : Json) : Option Declaration := do
  let field ← document.fields? fieldNames
  let id ← Json.required (field "id") Json.word?
  let purposes ← Json.optional (field "purposes") (Json.set? Json.byte?) ∅
  let interestPurposes ← Json.optional (field "legIntPurposes") (Json.set? Json.byte?) ∅
  let flexiblePurposes ← Json.optional (field "flexiblePurposes") (Json.set? Json.byte?) ∅
  let specialFeatures ← Json.optional (field "specialFeatures") (Json.set? Json.byte?) ∅
  return { id, purposes, interestPurposes, flexiblePurposes, specialFeatures }

/-- The document of a declaration. -/
def toJson (d : Declaration) : Json :=
  .record
    [("id", .ofWord d.id), ("purposes", .ofSet .ofByte d.purposes),
      ("legIntPurposes", .ofSet .ofByte d.interestPurposes),
      ("flexiblePurposes", .ofSet .ofByte d.flexiblePurposes),
      ("specialFeatures", .ofSet .ofByte d.specialFeatures)]

end Declaration

/-- A character that stands for itself. -/
def Piece.plain? : Piece → Option Char
  | .plain c => some c
  | _ => none

/-- The vendor id that a name writes: plain digits, without a leading zero. -/
def vendorKey? (name : Quoted) : Option VendorId := do
  let digits ← name.mapM Piece.plain?
  if digits ≠ [] ∧ digits.all Char.isDigit ∧ (digits = ['0'] ∨ digits.head? ≠ some '0') then
    let n := Nat.ofDigitChars 10 digits 0
    if n < UInt32.size then some (.ofNat n) else none
  else none

namespace VendorList

/-- The fields of a vendor list, in order. -/
def fieldNames : List String := ["vendorListVersion", "tcfPolicyVersion", "vendors"]

/-- The vendors that a document writes. -/
def vendors? : Json → Option (OrderedMap VendorId Declaration)
  | .object fields =>
    (fields.mapM fun (name, value) => do
      return (← vendorKey? name, ← Declaration.ofJson? value)).map OrderedMap.ofList
  | _ => none

/-- The vendor list that a document writes. -/
def ofJson? (document : Json) : Option VendorList := do
  let field ← document.fields? fieldNames
  let version ← Json.required (field "vendorListVersion") Json.word?
  let policyVersion ← Json.optional (field "tcfPolicyVersion") Json.word? 0
  let vendors ← Json.optional (field "vendors") vendors? ∅
  return { version, policyVersion, vendors }

/-- The document of a vendor list. -/
def toJson (l : VendorList) : Json :=
  .record
    [("vendorListVersion", .ofWord l.version), ("tcfPolicyVersion", .ofWord l.policyVersion),
      ("vendors", .record (l.vendors.entries.map fun (id, d) => (toString id.toNat, d.toJson)))]

/-- The vendor list that a text writes (`from_json`). Whether keys and ids agree is checked on the
list, so that an entry which a later one of its key replaces is not looked at. -/
def ofText (text : String) : Except VendorListFault VendorList :=
  match (Json.read? text).bind ofJson? with
  | none => .error .malformed
  | some l =>
    match l.mismatch? with
    | some (key, d) => .error (.mismatched key d.id)
    | none => .ok l

/-- The text of a vendor list. -/
def toText (l : VendorList) : String := l.toJson.render .compact

/-- What loading a vendor list reports. -/
def loaded (l : VendorList) : Event := .vendorListLoaded l.version l.policyVersion l.vendors.size

end VendorList

end ConsentGate
