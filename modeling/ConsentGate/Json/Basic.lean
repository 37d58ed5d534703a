import ConsentGate.Json.Numeral
import ConsentGate.Json.Quoted

/-!
# JSON documents

A document is held as it is written, apart from its white space and the spelling of exponents:
strings keep their escapes, numbers their digits, objects the order of their fields and fields of
one name.
-/

namespace ConsentGate

/-- A JSON document. -/
inductive Json where
  | null
  | bool (b : Bool)
  | number (n : Numeral)
  | string (q : Quoted)
  | array (items : List Json)
  | object (fields : List (Quoted × Json))

namespace Json

instance : Inhabited Json := ⟨null⟩

/-- The document of a natural number. -/
def ofNat (n : Nat) : Json := number (.ofNat n)

/-- The document of a text. -/
def ofString (s : String) : Json := string (.ofText s)

/-- The object with the given names and values. -/
def record (fields : List (String × Json)) : Json :=
  object (fields.map fun (name, value) => (.ofText name, value))

/-- The natural number that a document denotes. -/
def nat? : Json → Option Nat
  | number n => n.natural?
  | _ => none

/-- The text that a document denotes. -/
def text? : Json → Option String
  | string q => q.text?
  | _ => none

/-- The truth value that a document denotes. -/
def bool? : Json → Option Bool
  | bool b => some b
  | _ => none

@[simp] theorem nat?_ofNat (n : Nat) : (ofNat n).nat? = some n := Numeral.natural?_ofNat n

@[simp] theorem text?_ofString (s : String) : (ofString s).text? = some s := Quoted.text?_ofText s

end Json

end ConsentGate
