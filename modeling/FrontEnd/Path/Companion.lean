import FrontEnd.Path.Basic

/-! # The files of a compilation

The listing and the code of a program stand beside its source and share its stem. A program may
be given without the extension of its source.
-/

namespace FrontEnd.Path

/-- The extension of a source whose name has none. -/
def sourceExtension : List Char := "tny".toList

/-- What follows the stem in the name of a listing. -/
def listingEnding : List Char := "_listing.txt".toList

def codeExtension : List Char := "tm".toList

/-- The source file of a program. -/
def ofProgram (program : String) : Path :=
  let path := ofText program
  if path.extension?.isSome then path else path.withExtension sourceExtension

def listing (source : Path) : Path :=
  source.withFileName (source.stem?.getD [] ++ listingEnding)

def code (source : Path) : Path :=
  source.withExtension codeExtension

end FrontEnd.Path
