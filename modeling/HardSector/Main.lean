import HardSector.Duration
import HardSector.Program

/-!
# The command

The program on the file system of the machine it runs on: the files it needs are read into a file
tree, and the files that changed are written back.
-/

namespace HardSector.Command

/-- What lies at a place. -/
def look (place : String) : IO (Option Entry) := do
  try
    let bytes ← IO.FS.readBinFile place
    return some (.file bytes.data)
  catch
    | .noFileOrDirectory .. => return none
    | .inappropriateType .. => return some .directory
    | failure => throw failure

/-- A location as an absolute path. -/
def placeOf (location : Location) : String := "/" ++ "/".intercalate location

/-- The paths that lead to a path, shortest first, and the path. -/
def leading (path : String) : List String :=
  let start := if Path.isAbsolute path then "/" else ""
  let names := Path.names path
  (List.range names.length).map fun n => start ++ "/".intercalate (names.take (n + 1))

/-- A tree with what lies at a path and on the way to it. -/
def gather (tree : FileTree) (path : String) : IO FileTree := do
  let mut tree := tree
  for step in leading path do
    match tree.locate step with
    | .error _ => return tree
    | .ok location =>
      match ← look (placeOf location) with
      | none => return tree
      | some entry => tree := if location.isEmpty then tree else tree.put location entry
  return tree

/-- A tree with the working directory and the directories that lead to it. -/
def start : IO FileTree := do
  let here := Path.names s!"{← IO.currentDir}"
  return FileTree.plant { workingDirectory := here } [] here .directory

/-- Write back the files of a tree that differ from those of an earlier one. -/
def store (before after : FileTree) : IO Unit :=
  for (location, entry) in after.entries do
    match entry with
    | .directory => pure ()
    | .file bytes =>
      unless before.file? location = some bytes do
        IO.FS.writeBinFile (placeOf location) ⟨bytes⟩

/-- Run the program on the machine, and time it. -/
def execute (args : List String) : IO (Program.Output × Duration) := do
  let tree ← (Program.configPath args).toList.foldlM gather (← start)
  let tree ← (Program.imagePaths args tree).foldlM gather tree
  let began ← IO.monoNanosNow
  let output ← IO.lazyPure fun _ => Program.run args tree
  let ended ← IO.monoNanosNow
  store tree output.tree
  return (output, (Duration.ofParts? 0 (ended - began)).getD ⟨0, 0⟩)

end HardSector.Command

/-- Run the command, print what it prints, and end with its exit code. -/
def main (args : List String) : IO UInt32 := do
  let (output, elapsed) ← HardSector.Command.execute args
  IO.print (output.out elapsed.text)
  IO.eprint output.err
  return output.exit
