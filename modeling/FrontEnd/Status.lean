import FrontEnd.Journal

/-! # The status of a compilation

The stages of a compilation share the line the scanner is on and a flag that says whether an
error was found. Any stage may raise the flag, and no operation lowers it.
-/

namespace FrontEnd

/-- The scanner's line and whether an error was found. -/
structure Status where
  line : Nat := 0
  flagged : Bool := false
deriving DecidableEq, Repr

namespace Status

def moveTo (status : Status) (line : Nat) : Status :=
  { status with line }

def flag (status : Status) : Status :=
  { status with flagged := true }

/-- Raising the flag is reported only when it was not up yet. -/
def flagEntries (status : Status) : List Journal.Entry :=
  if status.flagged then [] else [.flagRaised status.line]

end FrontEnd.Status
