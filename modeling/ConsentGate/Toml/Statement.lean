import ConsentGate.Toml.Atom
import ConsentGate.Toml.Table
import ConsentGate.Toml.Token

/-!
# Statements

A settings text is a list of statements, each on lines of its own: a header for a table, a header
for one more table of a list, or a value under a key. Lists and tables written in place may span
lines, end with a comma and hold comments; they are nested at most 80 deep. A key has at most 80
parts and stands on one line. Reading is one step for each token.
-/

namespace ConsentGate.Toml

/-- A statement. -/
inductive Statement where
  | header (key : Key)
  | repeatedHeader (key : Key)
  | value (key : Key) (value : Node)

/-- Where a value belongs; inside brackets, with what stands before it, the latest first. -/
inductive Context where
  | line (key : Key)
  | item (before : List Node) (outer : Context)
  | field (before : List (Key × Node)) (key : Key) (outer : Context)

/-- The number of open brackets. -/
def Context.depth : Context → Nat
  | .line _ => 0
  | .item _ outer => outer.depth + 1
  | .field _ _ outer => outer.depth + 1

/-- The number of brackets that may be open. -/
def maximalDepth : Nat := 80

/-- The number of parts that a key may have. -/
def maximalParts : Nat := 80

/-- What a dotted key is for. -/
inductive KeyUse where
  | header
  | repeatedHeader
  | line
  /-- A field of a table written in place. -/
  | field (before : List (Key × Node)) (outer : Context)

/-- What comes next. -/
inductive Expectation where
  /-- A statement, a comment or nothing. -/
  | statement
  /-- The key of a header, or a second bracket. -/
  | headerKey
  /-- A part of a key, behind some parts. -/
  | keyPart (use : KeyUse) (before : List String)
  /-- A dot, or what ends a key. -/
  | keyEnd (use : KeyUse) (before : List String) (last : String)
  /-- The second closing bracket of a repeated header. -/
  | secondBracket (key : Key)
  /-- The equals sign of a field, behind its key and the end of a line. -/
  | fieldEquals (before : List (Key × Node)) (key : Key) (outer : Context)
  | value (context : Context)
  /-- More of an unquoted value. -/
  | atom (context : Context) (chars : List Char)
  /-- A comma or the closing bracket, behind an item. -/
  | itemEnd (before : List Node) (outer : Context)
  /-- A field or the closing bracket of a table written in place. -/
  | fieldStart (before : List (Key × Node)) (outer : Context)
  /-- A comma or the closing bracket, behind a field. -/
  | fieldEnd (before : List (Key × Node)) (outer : Context)
  /-- The end of a line, behind a statement if there is one. -/
  | lineEnd (statement : Option Statement)

/-- A character of a key without quotes. -/
def isBareKeyChar (c : Char) : Bool :=
  ('a' ≤ c && c ≤ 'z') || ('A' ≤ c && c ≤ 'Z') || c.isDigit || c == '-' || c == '_'

/-- The key that a token writes. -/
def keyOf? : Token → Option String
  | .quoted false text => some text
  | .atom chars => if chars.all isBareKeyChar then some (.ofList chars) else none
  | _ => none

/-- The expectation behind a value. -/
def complete (v : Node) : Context → Expectation
  | .line key => .lineEnd (some (.value key v))
  | .item before outer => .itemEnd (v :: before) outer
  | .field before key outer => .fieldEnd ((key, v) :: before) outer

/-- The expectation behind an opening bracket. -/
def enter (outer : Context) (next : Expectation) : Option Expectation :=
  if outer.depth < maximalDepth then some next else none

/-- A list that ends. -/
def closeList (before : List Node) (outer : Context) : Expectation :=
  complete (.list before.reverse) outer

/-- A table written in place that ends. -/
def closeTable (before : List (Key × Node)) (outer : Context) : Option Expectation :=
  (inlineTable? before.reverse).map fun v => complete v outer

/-- A part of a key. -/
def keyPart (use : KeyUse) (before : List String) (t : Token) : Option Expectation :=
  (keyOf? t).map fun key => .keyEnd use before key

/-- A dot behind a part of a key. -/
def nextPart (use : KeyUse) (before : List String) : Option Expectation :=
  if before.length < maximalParts then some (.keyPart use before) else none

/-- What ends a key. -/
def endKey (use : KeyUse) (key : Key) (t : Token) : Option Expectation :=
  match use, t with
  | .header, .closeSquare => some (.lineEnd (some (.header key)))
  | .repeatedHeader, .closeSquare => some (.secondBracket key)
  | .line, .equals => some (.value (.line key))
  | .field before outer, .equals => some (.value (.field before key outer))
  | .field before outer, .newline => some (.fieldEquals before key outer)
  | .field before outer, .comment => some (.fieldEquals before key outer)
  | _, _ => none

/-- A value, or its opening bracket. -/
def startValue (context : Context) (t : Token) : Option Expectation :=
  match t with
  | .quoted _ text => some (complete (.text text) context)
  | .atom chars => some (.atom context chars)
  | .openSquare => enter context (.value (.item [] context))
  | .openCurly => enter context (.fieldStart [] context)
  | .closeSquare =>
    match context with
    | .item before outer => some (closeList before outer)
    | _ => none
  | .newline | .comment =>
    match context with
    | .line _ => none
    | _ => some (.value context)
  | _ => none

/-- One token that does not go on with an unquoted value, and the statement that it ends. -/
def stepPlain (expectation : Expectation) (t : Token) :
    Option (Expectation × Option Statement) :=
  match expectation, t with
  | .headerKey, .blank => some (.keyPart .header [], none)
  | .value context, .blank => some (.value context, none)
  | .secondBracket _, .blank => none
  | expectation, .blank => some (expectation, none)
  | .statement, .newline => some (.statement, none)
  | .statement, .comment => some (.lineEnd none, none)
  | .statement, .openSquare => some (.headerKey, none)
  | .statement, t => (keyPart .line [] t).map (·, none)
  | .headerKey, .openSquare => some (.keyPart .repeatedHeader [], none)
  | .headerKey, t => (keyPart .header [] t).map (·, none)
  | .keyPart use before, t => (keyPart use before t).map (·, none)
  | .keyEnd use before last, .dot => (nextPart use (before ++ [last])).map (·, none)
  | .keyEnd use before last, t => (endKey use ⟨before, last⟩ t).map (·, none)
  | .secondBracket key, .closeSquare => some (.lineEnd (some (.repeatedHeader key)), none)
  | .fieldEquals before key outer, .equals => some (.value (.field before key outer), none)
  | .fieldEquals before key outer, .newline => some (.fieldEquals before key outer, none)
  | .fieldEquals before key outer, .comment => some (.fieldEquals before key outer, none)
  | .value context, t => (startValue context t).map (·, none)
  | .itemEnd before outer, .comma => some (.value (.item before outer), none)
  | .itemEnd before outer, .closeSquare => some (closeList before outer, none)
  | .itemEnd before outer, .newline => some (.itemEnd before outer, none)
  | .itemEnd before outer, .comment => some (.itemEnd before outer, none)
  | .fieldStart before outer, .closeCurly => (closeTable before outer).map (·, none)
  | .fieldStart before outer, .newline => some (.fieldStart before outer, none)
  | .fieldStart before outer, .comment => some (.fieldStart before outer, none)
  | .fieldStart before outer, t => (keyPart (.field before outer) [] t).map (·, none)
  | .fieldEnd before outer, .comma => some (.fieldStart before outer, none)
  | .fieldEnd before outer, .closeCurly => (closeTable before outer).map (·, none)
  | .fieldEnd before outer, .newline => some (.fieldEnd before outer, none)
  | .fieldEnd before outer, .comment => some (.fieldEnd before outer, none)
  | .lineEnd statement, .newline => some (.statement, statement)
  | .lineEnd statement, .comment => some (.lineEnd statement, none)
  | _, _ => none

/-- One token: it goes on with an unquoted value, or that value is complete and the token follows
it. -/
def step (expectation : Expectation) (t : Token) : Option (Expectation × Option Statement) :=
  match expectation, t with
  | .atom context chars, .atom more => some (.atom context (chars ++ more), none)
  | .atom context chars, .dot => some (.atom context (chars ++ ['.']), none)
  | .atom context chars, t => do stepPlain (complete (← atom? chars) context) t
  | expectation, t => stepPlain expectation t

/-- The statement that the end of the text ends. -/
def finish : Expectation → Option (Option Statement)
  | .statement => some none
  | .lineEnd statement => some statement
  | .atom (.line key) chars => (atom? chars).map fun v => some (.value key v)
  | _ => none

/-- The statements that some tokens write, from an expectation on. -/
def statementsFrom : Expectation → List Token → Option (List Statement)
  | expectation, [] => (finish expectation).map Option.toList
  | expectation, t :: ts => do
    let (next, statement) ← step expectation t
    return statement.toList ++ (← statementsFrom next ts)

/-- The statements that some tokens write. -/
def statements? (ts : List Token) : Option (List Statement) := statementsFrom .statement ts

end ConsentGate.Toml
