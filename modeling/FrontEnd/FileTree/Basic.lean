import FrontEnd.Fault

/-! # File trees

A file tree has directories and files with bytes, each at a location: the names that lead to it
from the root. The root is always a directory, and relative paths start at the working directory.
-/

namespace FrontEnd

/-- The names that lead to a file or directory from the root. -/
abbrev Location := List String

inductive FileEntry where
  | directory
  | file (content : ByteArray)

instance : DecidableEq FileEntry
  | .directory, .directory => isTrue rfl
  | .directory, .file _ => isFalse nofun
  | .file _, .directory => isFalse nofun
  | .file first, .file second =>
    match ByteArray.instDecidableEq first second with
    | isTrue same => isTrue (congrArg FileEntry.file same)
    | isFalse other => isFalse fun same => other (FileEntry.file.inj same)

/-- Files and directories, and the working directory. -/
structure FileTree where
  workingDirectory : Location
  entries : List (Location × FileEntry)
deriving DecidableEq

namespace FileTree

/-- A tree that holds an empty working directory. -/
def scratch (workingDirectory : Location) : FileTree :=
  ⟨workingDirectory, [(workingDirectory, .directory)]⟩

def lookup? (tree : FileTree) (location : Location) : Option FileEntry :=
  if location = [] then some .directory
  else (tree.entries.find? fun entry => entry.1 = location).map Prod.snd

/-- Put an entry into a list of entries, in the place of one that is at its location. -/
def putEntry (location : Location) (entry : FileEntry) :
    List (Location × FileEntry) → List (Location × FileEntry)
  | [] => [(location, entry)]
  | other :: rest =>
    if other.1 = location then (location, entry) :: rest
    else other :: putEntry location entry rest

def put (tree : FileTree) (location : Location) (entry : FileEntry) : FileTree :=
  { tree with entries := putEntry location entry tree.entries }

/-- Put an entry below the working directory, with the directories that lead to it. -/
def plant (tree : FileTree) (relative : Location) (entry : FileEntry) : FileTree :=
  let ancestors := (List.range relative.length).map fun depth => relative.take depth
  let grown := ancestors.foldl (fun grown ancestor =>
    let location := tree.workingDirectory ++ ancestor
    if (grown.lookup? location).isSome then grown else grown.put location .directory) tree
  grown.put (tree.workingDirectory ++ relative) entry

/-- Everything below the working directory, by the names that lead there from it. -/
def below (tree : FileTree) : List (Location × FileEntry) :=
  let depth := tree.workingDirectory.length
  (tree.entries.filter fun entry =>
    entry.1.take depth = tree.workingDirectory && depth < entry.1.length).map
      fun entry => (entry.1.drop depth, entry.2)

/-- The entry that was put at a location is found there, and the others stay. -/
theorem find?_putEntry (location other : Location) (entry : FileEntry)
    (entries : List (Location × FileEntry)) :
    ((putEntry location entry entries).find? fun found => found.1 = other).map Prod.snd =
      if other = location then some entry
      else (entries.find? fun found => found.1 = other).map Prod.snd := by
  induction entries with
  | nil => by_cases same : other = location <;> simp [putEntry, same, eq_comm]
  | cons head rest ih =>
    by_cases here : head.1 = location <;> by_cases same : other = location <;>
      by_cases found : head.1 = other <;> simp_all [putEntry, eq_comm]

/-- Below the root, an entry that is put at a location is what is there afterwards. -/
theorem lookup?_put (tree : FileTree) (location other : Location) (entry : FileEntry)
    (below : location ≠ []) :
    (tree.put location entry).lookup? other =
      if other = location then some entry else tree.lookup? other := by
  unfold lookup? put
  by_cases root : other = []
  · simp [root, Ne.symm below]
  · simp only [root, ↓reduceIte]
    exact find?_putEntry location other entry tree.entries

end FrontEnd.FileTree
