import EnvTemplates.CommandLine.Basic
import EnvTemplates.CommandLine.Listing

/-!
# The program

The command reads a listing of the files that it may look at from standard input, with paths
relative to the working directory, and their contents from the files. It writes the outputs, prints
what the run printed, and exits with its status.
-/

namespace EnvTemplates.Program

open CommandLine (Listed)

/-- The lines of a stream up to its end. -/
partial def linesOf (stream : IO.FS.Stream) (found : List Text) : IO (List Text) := do
  let next ← stream.getLine
  if next.isEmpty then return found.reverse
  else linesOf stream ((dropEnd? ['\n'] next.toList).getD next.toList :: found)

def contentsOf : Listed → IO Bytes
  | .file path => return (← IO.FS.readBinFile (String.ofList path.display)).toList
  | _ => return []

def treeOf (workingDirectory : Path) (entries : List Listed) : IO FileTree :=
  entries.foldlM (fun t e => return e.addTo t (← contentsOf e))
    (.within (Path.trimParts workingDirectory.body))

/-- Write the files that a run created or changed. -/
def writeChanges (before after : FileTree) : IO Unit :=
  for (l, n) in after.entries do
    match n with
    | .file contents =>
      if before.node? l ≠ some n then
        IO.FS.writeBinFile (String.ofList (FileTree.pathOf l).display) ⟨contents.toArray⟩
    | _ => pure ()

/-- Run the command and print what it prints. -/
def execute (arguments : List String) : IO UInt32 := do
  let here ← IO.getEnv "PWD"
  let colourful := (← IO.getEnv "NO_COLOR").isNone
  let described ← linesOf (← IO.getStdin) []
  let before ← treeOf (.ofText (here.getD "/").toList) (described.map Listed.ofLine)
  let o := CommandLine.run before (arguments.map String.toList) colourful
  writeChanges before o.tree
  (← IO.getStdout).putStr (String.ofList o.output)
  (← IO.getStderr).putStr (String.ofList o.diagnostics)
  return o.status.toUInt32

end EnvTemplates.Program

def main (arguments : List String) : IO UInt32 := EnvTemplates.Program.execute arguments
