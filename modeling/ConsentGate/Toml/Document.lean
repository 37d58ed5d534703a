import ConsentGate.Toml.Statement

/-!
# Settings documents

A document is its root table. The statements before the first header belong to the root, those
behind a header to the table that the header names. A text may start with a byte order mark.
-/

namespace ConsentGate.Toml

/-- The values that a list of statements starts with, and the statements from the next header on. -/
def section? : List Statement → List (Key × Node) × List Statement
  | .value key v :: rest => ((key, v) :: (section? rest).1, (section? rest).2)
  | rest => ([], rest)

theorem length_section (statements : List Statement) :
    (section? statements).2.length ≤ statements.length := by
  fun_induction section? statements with
  | case1 => simp; omega
  | case2 => exact Nat.le_refl _

/-- The root table with the sections that some statements write. -/
def addSections : List Statement → List (String × Item) → Option (List (String × Item))
  | [], root => some root
  | .header key :: rest, root =>
    (addTable key (section? rest).1 root).bind (addSections (section? rest).2)
  | .repeatedHeader key :: rest, root =>
    (addRepeated key (section? rest).1 root).bind (addSections (section? rest).2)
  | .value key v :: rest, root => (assign key v root).bind (addSections rest)
termination_by statements => statements.length
decreasing_by
  · have := length_section rest; simp; omega
  · have := length_section rest; simp; omega
  · simp

/-- A text without the byte order mark that it may start with. -/
def dropMark : List Char → List Char
  | '\ufeff' :: rest => rest
  | s => s

/-- The document that a text writes. -/
def document? (text : String) : Option Node := do
  let root ← addSections (← statements? (← tokens? (dropMark text.toList))) []
  return .table (nodes root)

end ConsentGate.Toml
