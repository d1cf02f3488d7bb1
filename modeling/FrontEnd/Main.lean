import FrontEnd.CommandLine.Invocation

/-! # The program

The files that a call of the program is about are read into a file tree, the call is carried out
on that tree, and the files that it changed are written.
-/

namespace FrontEnd.Main

def locationText (location : Location) : String :=
  "/" ++ "/".intercalate location

/-- Whether an attempt to read failed because a directory is there. -/
def foundDirectory : IO.Error → Bool
  | .inappropriateType _ code _ => code = 21
  | _ => false

/-- Note what is on disk at a location. -/
def observe (tree : FileTree) (location : Location) : IO FileTree := do
  try
    return tree.put location (.file (← IO.FS.readBinFile (locationText location)))
  catch error =>
    return if foundDirectory error then tree.put location .directory else tree

/-- Note what is on disk wherever a path passes. -/
def observePath (tree : FileTree) (path : Path) : IO FileTree :=
  (FileTree.visited (tree.startOf path) (Path.pieces path.chars)).foldlM observe tree

/-- Write the files that differ between two trees. -/
def store (before after : FileTree) : IO Unit := do
  for (location, entry) in after.entries do
    if before.lookup? location ≠ some entry then
      if let .file content := entry then
        IO.FS.writeBinFile (locationText location) content

/-- Call the program, ending with its exit status. -/
def call (arguments : List String) : IO UInt32 := do
  let environment ← IO.getEnv "TINY_LOG"
  let directory := (← IO.currentDir).toString
  let here := (directory.splitOn "/").filter (· ≠ "")
  let paths := CommandLine.pathsOf arguments environment
  let found ← paths.foldlM observePath (FileTree.scratch here)
  let ended := CommandLine.invoke arguments environment found
  store found ended.files
  IO.print ended.output
  IO.eprint ended.errors
  return ended.status.toUInt32

end FrontEnd.Main

def main (arguments : List String) : IO UInt32 :=
  FrontEnd.Main.call arguments
