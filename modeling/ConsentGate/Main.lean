import ConsentGate.CommandLine.Program

/-!
# Command line

Runs the program on its arguments. The files that the arguments may lead to are read first, so that
all the rest is a function of their contents.
-/

namespace ConsentGate.CommandLine

/-- The paths that a task reads. -/
def Task.paths : Task → List String
  | .validate path => [path]
  | .enforce request => request.file :: request.vendorList :: request.consent.toList

/-- Why the system could not read a file. An error in finding the file names its path, and one in
reading it does not. -/
def faultOf : IO.Error → ReadFault
  | .noFileOrDirectory .. => .missing
  | .inappropriateType (some _) .. => .notDirectory
  | .inappropriateType none .. => .directory
  | .invalidArgument (some _) .. => .tooLong
  | e => .other (toString e)

/-- The text at a path, or why there is none. -/
def readPath (path : String) : IO (Except ReadFault String) := do
  if path.isEmpty then return .error .missing
  try return decodeContent (← IO.FS.readBinFile path)
  catch e => return .error (faultOf e)

/-- The texts at some paths. -/
def readPaths (paths : List String) : IO Files := do
  let texts ← paths.mapM fun path => do return (path, ← readPath path)
  return fun path => (texts.lookup path).getD (.error .missing)

/-- The environment of the program. -/
def readEnvironment : IO (List Variable) := do
  let block ← IO.FS.readBinFile "/proc/self/environ"
  let entries := (String.fromUTF8? block).elim [] fun text => text.splitOn "\x00"
  return entries.filterMap Variable.ofEntry?

/-- The paths that some arguments lead to. -/
def pathsOf (arguments : List String) : List String :=
  match Request.ofArguments arguments with
  | .ok request => request.task.paths
  | .error _ => []

end ConsentGate.CommandLine

open ConsentGate ConsentGate.CommandLine

/-- Runs the program and exits as it says. -/
def main (arguments : List String) : IO UInt32 := do
  let files ← readPaths (pathsOf arguments)
  let ending := Ending.ofArguments files (← readEnvironment) arguments
  for event in ending.log do
    IO.eprintln event.line
  IO.print ending.output
  IO.eprint ending.complaint
  return ending.exitCode.toUInt32
