/-!
# Files

What a run may read. A source of files answers each path with a text or with the reason why there is
none; a directory of named files is such a source. It answers what `read_to_string` does.
-/

namespace ConsentGate

/-- Why a file cannot be read. -/
inductive ReadFault where
  /-- There is no such file. -/
  | missing
  /-- The path leads to a directory. -/
  | directory
  /-- The path goes on behind a file. -/
  | notDirectory
  /-- The path, or a name in it, is too long. -/
  | tooLong
  /-- The path holds the character zero. -/
  | zeroInPath
  /-- The content is not UTF-8. -/
  | notText
  /-- Any other reason, in words. -/
  | other (text : String)
  deriving DecidableEq

/-- The words for a fault in reading. -/
def ReadFault.text : ReadFault → String
  | missing => "No such file or directory (os error 2)"
  | directory => "Is a directory (os error 21)"
  | notDirectory => "Not a directory (os error 20)"
  | tooLong => "File name too long (os error 36)"
  | zeroInPath => "file name contained an unexpected NUL byte"
  | notText => "stream did not contain valid UTF-8"
  | other text => text

/-- The answer to each path. -/
abbrev Files := String → Except ReadFault String

/-- The text of a content. -/
def decodeContent (content : ByteArray) : Except ReadFault String :=
  (String.fromUTF8? content).elim (.error .notText) .ok

/-- The files of a directory by name. -/
abbrev Directory := List (String × ByteArray)

namespace Directory

/-- Where the first names of a path lead. -/
inductive Spot where
  /-- The directory itself. -/
  | inside
  /-- A directory above it, of which no file is known. -/
  | outside
  | file (content : ByteArray)

/-- The longest name that a directory can hold, in bytes. -/
def longestName : Nat := 255

/-- The longest path, in bytes. -/
def longestPath : Nat := 4095

/-- Where one more name leads. -/
def follow (d : Directory) (spot : Spot) (name : String) : Except ReadFault Spot :=
  match spot with
  | .file _ => .error .notDirectory
  | .outside =>
    if name = "" ∨ name = "." ∨ name = ".." then .ok .outside
    else if longestName < name.utf8ByteSize then .error .tooLong
    else .error .missing
  | .inside =>
    if name = "" ∨ name = "." then .ok .inside
    else if name = ".." then .ok .outside
    else if longestName < name.utf8ByteSize then .error .tooLong
    else (d.lookup name).elim (.error .missing) fun content => .ok (.file content)

/-- The parts of a path between its slashes. -/
def names (path : List Char) : List (List Char) :=
  path.foldr (fun c parts => if c = '/' then [] :: parts else
    match parts with
    | [] => [[c]]
    | part :: rest => (c :: part) :: rest) [[]]

/-- The text at a path. -/
def read (d : Directory) : Files := fun path =>
  if '\x00' ∈ path.toList then .error .zeroInPath
  else if path = "" then .error .missing
  else if longestPath < path.utf8ByteSize then .error .tooLong
  else do
    let start := if path.toList.head? = some '/' then Spot.outside else .inside
    match ← ((names path.toList).map String.ofList).foldlM d.follow start with
    | .file content => decodeContent content
    | _ => .error .directory

end Directory

end ConsentGate
