import ConsentGate.Json.Lexeme

/-!
# Reading JSON text

A document is read from its lexemes one by one. Between two lexemes the reader knows what it expects
next and which brackets are open, so that reading is one step for each lexeme and the first one out
of place is the fault.

Results:

* `step_lexeme`: whether a step succeeds, and where it leads, depends on the lexeme and not on its
  place.
-/

namespace ConsentGate.Json

/-- The open brackets around a value, each with what it holds so far, the latest first. -/
inductive Context where
  | top
  | item (before : List Json) (outer : Context)
  | field (before : List (Quoted × Json)) (name : Quoted) (outer : Context)

/-- The number of open brackets. -/
def Context.depth : Context → Nat
  | .top => 0
  | .item _ outer => outer.depth + 1
  | .field _ _ outer => outer.depth + 1

/-- What comes next. -/
inductive Expectation where
  | value (context : Context)
  /-- An item or the end of an array that has just been opened. -/
  | firstItem (outer : Context)
  /-- An item, after a comma. -/
  | nextItem (before : List Json) (outer : Context)
  /-- A name or the end of an object that has just been opened. -/
  | firstName (outer : Context)
  /-- A name, after a comma. -/
  | nextName (before : List (Quoted × Json)) (outer : Context)
  | colon (before : List (Quoted × Json)) (name : Quoted) (outer : Context)
  /-- A comma or the closing bracket, or the end of the text, after a value. -/
  | separator (context : Context) (value : Json)

/-- The number of brackets that a reader of values may leave open. -/
def maximalDepth : Nat := 127

/-- The expectation behind an opening bracket. -/
def enter (rigor : Rigor) (context : Context) (entry : Entry) (next : Expectation) :
    Except Fault Expectation :=
  if rigor = .value ∧ maximalDepth ≤ context.depth then .error (.atStart .tooDeep entry.place)
  else .ok next

/-- A value, or its opening bracket. -/
def startValue (rigor : Rigor) (context : Context) (entry : Entry) : Except Fault Expectation :=
  match entry.lexeme with
  | .openBracket => enter rigor context entry (.firstItem context)
  | .openBrace => enter rigor context entry (.firstName context)
  | .string q => .ok (.separator context (.string q))
  | .atom value => .ok (.separator context value)
  | .broken _ fault => .error fault
  | .closeBracket | .closeBrace | .comma | .colon => .error (.atStart .expectedValue entry.place)

/-- The name of a field. -/
def startField (before : List (Quoted × Json)) (outer : Context) (entry : Entry) :
    Except Fault Expectation :=
  match entry.lexeme with
  | .string name => .ok (.colon before name outer)
  | .broken true fault => .error fault
  | _ => .error (.atStart .keyNotString entry.place)

/-- One lexeme. -/
def step (rigor : Rigor) (expectation : Expectation) (entry : Entry) : Except Fault Expectation :=
  match expectation, entry.lexeme with
  | .value context, _ => startValue rigor context entry
  | .firstItem outer, .closeBracket => .ok (.separator outer (.array []))
  | .firstItem outer, _ => startValue rigor (.item [] outer) entry
  | .nextItem _ _, .closeBracket => .error (.atStart .trailingComma entry.place)
  | .nextItem before outer, _ => startValue rigor (.item before outer) entry
  | .firstName outer, .closeBrace => .ok (.separator outer (.object []))
  | .firstName outer, _ => startField [] outer entry
  | .nextName _ _, .closeBrace => .error (.atStart .trailingComma entry.place)
  | .nextName before outer, _ => startField before outer entry
  | .colon before name outer, .colon => .ok (.value (.field before name outer))
  | .colon .., _ => .error (.atStart .expectedColon entry.place)
  | .separator (.item before outer) v, .comma => .ok (.nextItem (v :: before) outer)
  | .separator (.item before outer) v, .closeBracket =>
    .ok (.separator outer (.array (v :: before).reverse))
  | .separator (.item ..) _, _ => .error (.atStart .expectedCommaOrBracket entry.place)
  | .separator (.field before name outer) v, .comma => .ok (.nextName ((name, v) :: before) outer)
  | .separator (.field before name outer) v, .closeBrace =>
    .ok (.separator outer (.object ((name, v) :: before).reverse))
  | .separator (.field ..) _, _ => .error (.atStart .expectedCommaOrBrace entry.place)
  | .separator .top _, _ => .error (.atStart .trailingCharacters entry.place)

/-- The document that has been read when the text ends. -/
def finish : Expectation → Except Fault Json
  | .separator .top v => .ok v
  | .value _ | .nextItem .. | .nextName .. => .error (.atStart .endInValue [])
  | .firstItem _ | .separator (.item ..) _ => .error (.atStart .endInArray [])
  | .firstName _ | .colon .. | .separator (.field ..) _ => .error (.atStart .endInObject [])

/-- The document that some lexemes write, from an expectation on. -/
def readFrom (rigor : Rigor) : Expectation → List Entry → Except Fault Json
  | expectation, [] => finish expectation
  | expectation, entry :: entries => do readFrom rigor (← step rigor expectation entry) entries

/-- The document that a text writes. -/
def read (rigor : Rigor) (text : String) : Except Fault Json :=
  readFrom rigor (.value .top) (lexemes rigor text.toList)

/-- The document that a text writes, if its shape is that of one. -/
def read? (text : String) : Option Json := (read .shape text).toOption

/-! ## Places do not matter to success -/

theorem enter_eq_ok {rigor : Rigor} {context : Context} {entry : Entry} {next r : Expectation} :
    enter rigor context entry next = .ok r ↔
      ¬ (rigor = .value ∧ maximalDepth ≤ context.depth) ∧ next = r := by
  unfold enter
  split
  case isTrue h => simp [h]
  case isFalse h => simp [h]

theorem startValue_lexeme {rigor : Rigor} {context : Context} {next : Expectation} {l : Lexeme}
    {place place' : List Char} (h : startValue rigor context ⟨l, place⟩ = .ok next) :
    startValue rigor context ⟨l, place'⟩ = .ok next := by
  cases l with
  | openBracket => exact enter_eq_ok.2 (enter_eq_ok.1 h)
  | openBrace => exact enter_eq_ok.2 (enter_eq_ok.1 h)
  | string q => exact h
  | atom value => exact h
  | _ => simp [startValue] at h

theorem startField_lexeme {before : List (Quoted × Json)} {outer : Context} {next : Expectation}
    {l : Lexeme} {place place' : List Char} (h : startField before outer ⟨l, place⟩ = .ok next) :
    startField before outer ⟨l, place'⟩ = .ok next := by
  cases l with
  | string name => exact h
  | broken isString fault => cases isString <;> simp [startField] at h
  | _ => simp [startField] at h

/-- Whether a step succeeds, and where it leads, depends on the lexeme and not on its place. -/
theorem step_lexeme {rigor : Rigor} {expectation next : Expectation} {l : Lexeme}
    {place place' : List Char} (h : step rigor expectation ⟨l, place⟩ = .ok next) :
    step rigor expectation ⟨l, place'⟩ = .ok next := by
  cases expectation with
  | value context =>
    simp only [step] at h ⊢
    exact startValue_lexeme h
  | firstItem outer =>
    cases l <;> simp only [step] at h ⊢ <;> first | exact startValue_lexeme h | exact h
  | nextItem before outer =>
    cases l <;> simp only [step, reduceCtorEq] at h ⊢ <;> exact startValue_lexeme h
  | firstName outer =>
    cases l <;> simp only [step] at h ⊢ <;> first | exact startField_lexeme h | exact h
  | nextName before outer =>
    cases l <;> simp only [step, reduceCtorEq] at h ⊢ <;> exact startField_lexeme h
  | colon before name outer => cases l <;> simp only [step, reduceCtorEq] at h ⊢; exact h
  | separator context v =>
    cases context <;> cases l <;> simp only [step, reduceCtorEq] at h ⊢ <;> exact h

end ConsentGate.Json
