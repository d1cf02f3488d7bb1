import FrontEnd.Lexer.Gap
import FrontEnd.Lexer.Munch
import FrontEnd.Scanner.Basic

/-! # The lexer

The scanner of a source text. Its state is the text still to be read and the line that text is
on. A character that begins no lexeme and a comment that is never closed become tokens of their
own, which are reported and raise the error flag.
-/

namespace FrontEnd

/-- The text still to be read and its line. -/
structure Lexer where
  rest : List Char
  line : Nat
deriving DecidableEq, Repr

namespace Lexer

/-- A lexer at the start of a source; an empty source has no lines. -/
def ofSource (source : List Char) : Lexer :=
  ⟨source, if source.isEmpty then 0 else 1⟩

def step (lexer : Lexer) : Token × Lexer :=
  match skipGap .gap lexer.rest lexer.line with
  | .unclosed line => (⟨.openComment, "/*", line⟩, ⟨[], line⟩)
  | .reached [] line => (⟨.endOfFile, "", line⟩, ⟨[], line⟩)
  | .reached (first :: after) line =>
    let taken := munch first after
    (⟨taken.kind, String.ofList taken.lexeme, line⟩, ⟨taken.rest, line⟩)

/-- Each token before the end of file shortens the text. -/
theorem length_step_lt (lexer : Lexer) (more : lexer.step.1.kind ≠ .endOfFile) :
    lexer.step.2.rest.length < lexer.rest.length := by
  unfold step at more ⊢
  split
  · next skipped => exact length_pos_of_skipGap_gap skipped
  · next skipped => simp [skipped] at more
  · next skipped =>
    exact Nat.lt_of_lt_of_le (length_munch_rest_lt _ _) (length_le_of_skipGap skipped)

/-- Move the status to a token's line, and report a token that is a fault. -/
def observe (token : Token) (status : Status) : Status × List Journal.Entry :=
  let moved := status.moveTo token.line
  if token.kind.isFault then
    (moved.flag, .lexicalError token.lexeme token.line :: moved.flagEntries)
  else (moved, [])

instance : FiniteScanner Lexer where
  next lexer status :=
    let stepped := lexer.step
    let observed := observe stepped.1 status
    ⟨stepped.1, stepped.2, observed.1, observed.2⟩
  remaining lexer := lexer.rest.length
  remaining_next lexer _ more := length_step_lt lexer more

def session (source : String) (status : Status) : Session Lexer :=
  ⟨ofSource source.toList, status, []⟩

end Lexer

/-- The tokens of a source, through the end of file. -/
def tokens (source : String) (status : Status) : List Token × Session Lexer :=
  (Lexer.session source status).drain

end FrontEnd
