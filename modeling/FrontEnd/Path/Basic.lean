/-! # Paths

A path is a text of pieces between slashes. Its file name is the last piece that counts: slashes
and single dots behind it do not, except for a dot at the very start of the path. The pieces `.`
and `..` are not file names. The dot that begins an extension is the last one of the file name,
unless that is its first character.
-/

namespace FrontEnd

/-- The text of a path. -/
structure Path where
  chars : List Char
deriving DecidableEq, Repr

namespace Path

def ofText (text : String) : Path :=
  ⟨text.toList⟩

def text (path : Path) : String :=
  String.ofList path.chars

/-- Remove slashes and single dots from the end of a text, which is given backwards; a dot that
is the whole text stays. -/
def dropTrail : List Char → List Char
  | '/' :: before => dropTrail before
  | '.' :: '/' :: before => dropTrail ('/' :: before)
  | backwards => backwards

/-- The path up to the end of its last piece that counts. -/
def body (path : Path) : List Char :=
  (dropTrail path.chars.reverse).reverse

/-- What stands behind the last piece that counts. -/
def trail (path : Path) : List Char :=
  path.chars.drop path.body.length

/-- The last piece that counts. -/
def lastPiece (path : Path) : List Char :=
  (path.body.reverse.takeWhile (· ≠ '/')).reverse

/-- What stands before the last piece that counts. -/
def lead (path : Path) : List Char :=
  path.body.take (path.body.length - path.lastPiece.length)

def isFileName (piece : List Char) : Bool :=
  piece ≠ [] && piece ≠ ['.'] && piece ≠ ['.', '.']

def fileName? (path : Path) : Option (List Char) :=
  if isFileName path.lastPiece then some path.lastPiece else none

/-- A file name up to its last dot, and what follows that dot. -/
def splitName (name : List Char) : List Char × Option (List Char) :=
  let backwards := name.reverse
  match backwards.dropWhile (· ≠ '.') with
  | '.' :: first :: before =>
    ((first :: before).reverse, some (backwards.takeWhile (· ≠ '.')).reverse)
  | _ => (name, none)

def stem? (path : Path) : Option (List Char) :=
  path.fileName?.map fun name => (splitName name).1

/-- The extension of the file name, which may be empty. -/
def extension? (path : Path) : Option (List Char) :=
  path.fileName?.bind fun name => (splitName name).2

/-- Put an extension behind the stem in place of the one that is there and of whatever follows it.
A path without a file name stays as it is. Where the stem is a single dot and the extension ends
the path, taking that extension off leaves no file name, so only that is done. -/
def withExtension (path : Path) (extension : List Char) : Path :=
  match path.fileName? with
  | none => path
  | some name =>
    match splitName name with
    | (['.'], some (_ :: _)) =>
      if path.trail.isEmpty then ⟨path.lead ++ ['.', '.']⟩
      else ⟨path.lead ++ ['.'] ++ '.' :: extension⟩
    | (stem, _) => ⟨path.lead ++ stem ++ '.' :: extension⟩

/-- The path of the directory that holds the last piece: what stands before it, without slashes
and dots at its end but with the slash of the root. -/
def parent (path : Path) : Path :=
  match (dropTrail path.lead.reverse).reverse with
  | [] => ⟨path.lead.take 1⟩
  | directory => ⟨directory⟩

def join (path : Path) (piece : List Char) : Path :=
  if path.chars.isEmpty || path.chars.getLast? = some '/' then ⟨path.chars ++ piece⟩
  else ⟨path.chars ++ '/' :: piece⟩

/-- Put a file name in place of the one that is there, or behind a path that has none. -/
def withFileName (path : Path) (name : List Char) : Path :=
  match path.fileName? with
  | none => path.join name
  | some _ => path.parent.join name

end FrontEnd.Path
