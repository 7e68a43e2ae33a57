import Roster.Command.Run

/-!
# The program

The outer layer: it takes the words of the command line, reads the files that they are about,
runs the program on them (`Roster.run`), prints what there is to print and gives the exit code.

Folders are not listed here. Where the location of the data is a pattern, the names of the files
that may match it are read from the standard input, one on a line.
-/

namespace Roster

/-- The content of a file, if there is one that can be read. -/
def fileContent? (path : String) : IO (Option ByteArray) := do
  try
    return some (← IO.FS.readBinFile path)
  catch _ =>
    return none

/-- The tree with the file of a path in it, if there is one that can be read. -/
def addFile (tree : FileTree) (path : String) : IO FileTree := do
  match ← fileContent? path with
  | some bytes => return tree.insertFile path bytes
  | none => return tree

/-- The lines of the standard input. -/
partial def inputLines (input : IO.FS.Stream) (lines : List String) : IO (List String) := do
  let line ← input.getLine
  if line.isEmpty then return lines.reverse
  else inputLines input (String.ofList (line.toList.filter (· != '\n')) :: lines)

/-- The tree of the files that an invocation is about. -/
def filesOf (invocation : Invocation) : IO FileTree := do
  let current := pathNames ((← IO.getEnv "PWD").getD "")
  let tree : FileTree := ⟨[], current.filter fun name => name != ""⟩
  let tree ← (invocation.settingsPath.toList).foldlM addFile tree
  match invocation.settings tree with
  | .error _ => return tree
  | .ok settings =>
    let paths ←
      if isPattern settings.dataPath then inputLines (← IO.getStdin) []
      else pure [settings.dataPath]
    paths.foldlM addFile tree

/-- Whether colours are on: forced, forbidden, or on because the output is a terminal. -/
def colorWanted : IO Bool := do
  let forced := (← IO.getEnv "CLICOLOR_FORCE").getD "0"
  if forced != "0" then return true
  if (← IO.getEnv "NO_COLOR").isSome then return false
  (← IO.getStdout).isTty

end Roster

open Roster in
/-- Runs the program. -/
def main (words : List String) : IO UInt32 := do
  let tree ←
    match Invocation.read words with
    | .ok invocation => filesOf invocation
    | .error _ => pure ⟨[], []⟩
  let outcome := Roster.run tree (← colorWanted) words
  (← IO.getStdout).putStr outcome.stdout
  (← IO.getStderr).putStr outcome.stderr
  return outcome.exitCode
