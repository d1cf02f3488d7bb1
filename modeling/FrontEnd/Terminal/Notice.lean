import FrontEnd.Compilation.Failure
import FrontEnd.Terminal.Style

/-! # Notices

What the program tells its user: a title behind a mark for its severity, a body if there is one,
and a hint if there is one.
-/

namespace FrontEnd.Terminal

inductive Severity where
  | error
  | warning
deriving DecidableEq, Repr

def Severity.mark : Severity → Span
  | error => ⟨"✕ Error", some .bold, some .red⟩
  | warning => ⟨"⚠ Warning", some .bold, some .yellow⟩

/-- A message to the user. -/
structure Notice where
  title : String
  body : String
  hint : Option String
  severity : Severity
deriving DecidableEq, Repr

namespace Notice

/-- A warning that has only a title and a hint. -/
def warning (title hint : String) : Notice :=
  ⟨title, "", some hint, .warning⟩

def ofFailure (failure : Failure) : Notice :=
  ⟨failure.title, failure.message, failure.suggestion, .error⟩

/-- A notice in lines of styled text. -/
def spans (notice : Notice) : List Span :=
  [notice.severity.mark, { text := ":", weight := some .bold }, { text := " " },
      { text := notice.title, weight := some .bold }, { text := "\n" }] ++
    (if notice.body.isEmpty then [] else [{ text := notice.body }, { text := "\n" }]) ++
    match notice.hint with
    | none => []
    | some hint =>
      [⟨"hint:", some .italic, some .cyan⟩, { text := " " }, { text := hint }, { text := "\n" }]

end FrontEnd.Terminal.Notice
