/-! # Gaps between lexemes

Blanks, tabs, line endings and comments stand between lexemes. A comment runs from its opening
pair of characters to the first closing pair after it. Crossing a newline moves to the next line
only when more source follows, so the line is never past the last one.
-/

namespace FrontEnd.Lexer

/-- Whether skipping is inside a comment. -/
inductive Surroundings where
  | gap
  | comment
deriving DecidableEq, Repr

inductive GapEnd where
  /-- The text after the gap, which is empty or begins a lexeme, and its line. -/
  | reached (rest : List Char) (line : Nat)
  /-- The source ends on a line inside a comment. -/
  | unclosed (line : Nat)
deriving DecidableEq, Repr

def lineAfterNewline (rest : List Char) (line : Nat) : Nat :=
  if rest.isEmpty then line else line + 1

/-- Skip blanks and comments, counting lines. -/
def skipGap : Surroundings → List Char → Nat → GapEnd
  | .gap, ' ' :: rest, line => skipGap .gap rest line
  | .gap, '\t' :: rest, line => skipGap .gap rest line
  | .gap, '\r' :: rest, line => skipGap .gap rest line
  | .gap, '\n' :: rest, line => skipGap .gap rest (lineAfterNewline rest line)
  | .gap, '/' :: '*' :: rest, line => skipGap .comment rest line
  | .gap, rest, line => .reached rest line
  | .comment, '*' :: '/' :: rest, line => skipGap .gap rest line
  | .comment, '\n' :: rest, line => skipGap .comment rest (lineAfterNewline rest line)
  | .comment, _ :: rest, line => skipGap .comment rest line
  | .comment, [], line => .unclosed line

/-- Skipping leaves no more text than it was given. -/
theorem length_le_of_skipGap {surroundings : Surroundings} {text rest : List Char}
    {line last : Nat} (skipped : skipGap surroundings text line = .reached rest last) :
    rest.length ≤ text.length := by
  fun_induction skipGap surroundings text line with
  | case6 => cases skipped; exact Nat.le_refl _
  | case10 => cases skipped
  | _ => simp only [List.length_cons]; grind

/-- A comment that is never closed is not the whole of an empty text. -/
theorem length_pos_of_skipGap_gap {text : List Char} {line last : Nat}
    (skipped : skipGap .gap text line = .unclosed last) : 0 < text.length := by
  cases text with
  | nil => simp [skipGap] at skipped
  | cons => simp

end FrontEnd.Lexer
