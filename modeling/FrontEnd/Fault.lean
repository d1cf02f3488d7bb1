/-! # Faults

What can go wrong outside the program that is compiled: reading a file, creating one, writing
into a listing, or finding memory for a syntax node.
-/

namespace FrontEnd

/-- Why a file or a listing could not be read or written. -/
inductive Fault where
  | notFound
  | isDirectory
  | notDirectory
  | nameTooLong
  | nameHoldsNul
  | notUtf8
  | listingFull
  /-- A stage gave up writing, for a reason of its own. -/
  | stage (reason : String)
deriving DecidableEq, Repr

def Fault.message : Fault → String
  | notFound => "No such file or directory (os error 2)"
  | isDirectory => "Is a directory (os error 21)"
  | notDirectory => "Not a directory (os error 20)"
  | nameTooLong => "File name too long (os error 36)"
  | nameHoldsNul => "file name contained an unexpected NUL byte"
  | notUtf8 => "stream did not contain valid UTF-8"
  | listingFull => "listing full"
  | stage reason => reason

/-- Memory for a node or a name ran out while a line was being scanned. -/
structure OutOfMemory where
  line : Nat
deriving DecidableEq, Repr

def OutOfMemory.message (failure : OutOfMemory) : String :=
  "Out of memory error at line " ++ toString failure.line

end FrontEnd
