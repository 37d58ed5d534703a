/-!
# Lines

A text is a sequence of lines, each ended by a line feed, which a carriage return may precede; the
last line may lack its end. Neither character belongs to the line.
-/

namespace ConsentGate.Text

/-- The characters before the first line feed, and those behind it. -/
def splitLine : List Char → List Char × List Char
  | [] => ([], [])
  | c :: s => if c = '\n' then ([], s) else (c :: (splitLine s).1, (splitLine s).2)

theorem length_splitLine (s : List Char) : (splitLine s).2.length ≤ s.length := by
  induction s with
  | nil => simp [splitLine]
  | cons c s ih =>
    unfold splitLine
    split
    · simp
    · exact Nat.le_succ_of_le ih

theorem length_splitLine_lt (c : Char) (s : List Char) :
    (splitLine (c :: s)).2.length < (c :: s).length := by
  unfold splitLine
  split
  · simp
  · exact Nat.lt_succ_of_le (length_splitLine s)

/-- A line without the carriage return that belongs to its end. -/
def withoutReturn (line : List Char) : List Char :=
  if line.getLast? = some '\r' then line.dropLast else line

/-- The lines of a text. -/
def lineChars : List Char → List (List Char)
  | [] => []
  | c :: s => withoutReturn (splitLine (c :: s)).1 :: lineChars (splitLine (c :: s)).2
termination_by s => s.length
decreasing_by exact length_splitLine_lt c s

/-- The lines of a text. -/
def lines (s : String) : List String := (lineChars s.toList).map .ofList

/-- The first line of a text. -/
def firstLine (s : String) : String := (lines s).head?.getD ""

end ConsentGate.Text
