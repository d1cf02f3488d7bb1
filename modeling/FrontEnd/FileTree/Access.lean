import FrontEnd.FileTree.Basic
import FrontEnd.Path.Basic

/-! # Reading and creating files

A path is followed piece by piece from the root or the working directory. Each piece but the last
has to be a directory. Empty pieces and single dots stay where they are, and double dots go to the
directory above. The last piece decides what is read or created.
-/

namespace FrontEnd

/-- The pieces of a text between slashes, empty ones too. -/
def Path.pieces : List Char → List (List Char)
  | [] => [[]]
  | '/' :: rest => [] :: pieces rest
  | char :: rest =>
    match pieces rest with
    | [] => [[char]]
    | piece :: later => (char :: piece) :: later

namespace FileTree

def maximalName : Nat := 255

/-- The bytes a path can have. -/
def maximalPath : Nat := 4095

/-- What a path leads to. -/
inductive Destination where
  /-- A directory, by the form of the path. -/
  | directory
  /-- A name in a directory, with a slash behind it or not. -/
  | named (directory : Location) (name : String) (slashed : Bool)
deriving DecidableEq, Repr

/-- Follow pieces, each of which has to be a directory. -/
def walk (tree : FileTree) : Location → List (List Char) → Except Fault Location
  | location, [] => .ok location
  | location, [] :: rest => walk tree location rest
  | location, ['.'] :: rest => walk tree location rest
  | location, ['.', '.'] :: rest => walk tree location.dropLast rest
  | location, piece :: rest =>
    let name := String.ofList piece
    if maximalName < name.utf8ByteSize then .error .nameTooLong
    else
      match tree.lookup? (location ++ [name]) with
      | none => .error .notFound
      | some (.file _) => .error .notDirectory
      | some .directory => walk tree (location ++ [name]) rest

/-- The locations that a path passes when each of its pieces is followed. -/
def visited : Location → List (List Char) → List Location
  | _, [] => []
  | location, [] :: rest => visited location rest
  | location, ['.'] :: rest => visited location rest
  | location, ['.', '.'] :: rest => visited location.dropLast rest
  | location, piece :: rest =>
    let next := location ++ [String.ofList piece]
    next :: visited next rest

def startOf (tree : FileTree) (path : Path) : Location :=
  if path.chars.head? = some '/' then [] else tree.workingDirectory

/-- Follow a path up to its last piece. -/
def resolve (tree : FileTree) (path : Path) : Except Fault Destination :=
  if path.chars.contains '\x00' then .error .nameHoldsNul
  else if path.chars.isEmpty then .error .notFound
  else if maximalPath < path.text.utf8ByteSize then .error .nameTooLong
  else
    let trimmed := (path.chars.reverse.dropWhile (· = '/')).reverse
    let pieces := Path.pieces trimmed
    match tree.walk (tree.startOf path) pieces.dropLast with
    | .error fault => .error fault
    | .ok directory =>
      let last := pieces.getLastD []
      if Path.isFileName last then
        .ok (.named directory (String.ofList last) (trimmed.length < path.chars.length))
      else .ok .directory

def read (tree : FileTree) (path : Path) : Except Fault String :=
  match tree.resolve path with
  | .error fault => .error fault
  | .ok .directory => .error .isDirectory
  | .ok (.named directory name slashed) =>
    if maximalName < name.utf8ByteSize then .error .nameTooLong
    else
      match tree.lookup? (directory ++ [name]) with
      | none => .error .notFound
      | some .directory => .error .isDirectory
      | some (.file content) =>
        if slashed then .error .notDirectory
        else
          match String.fromUTF8? content with
          | none => .error .notUtf8
          | some text => .ok text

/-- Where a file would be created. -/
def creationSite (tree : FileTree) (path : Path) : Except Fault Location :=
  match tree.resolve path with
  | .error fault => .error fault
  | .ok .directory => .error .isDirectory
  | .ok (.named directory name slashed) =>
    if slashed then .error .isDirectory
    else if maximalName < name.utf8ByteSize then .error .nameTooLong
    else
      match tree.lookup? (directory ++ [name]) with
      | some .directory => .error .isDirectory
      | _ => .ok (directory ++ [name])

/-- Create a file, or empty the one that is there, yielding its location. -/
def create (tree : FileTree) (path : Path) : Except Fault (Location × FileTree) :=
  (tree.creationSite path).map fun location => (location, tree.put location (.file .empty))

end FrontEnd.FileTree
