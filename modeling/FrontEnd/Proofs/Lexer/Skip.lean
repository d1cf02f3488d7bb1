import FrontEnd.Lexer.Gap
import FrontEnd.Proofs.Lexer.Language

/-! # Skipping gaps

Skipping crosses exactly the gap in front of a text. It stops where no gap begins, and it reports a
comment that is never closed. The line it comes to is a function of the text it crosses and of the
text behind that, because a newline at the very end of the source begins no line.
-/

namespace FrontEnd.Lexer

/-- The line behind a text that is crossed, given the text that follows. -/
def crossed : List Char → List Char → Nat → Nat
  | [], _, line => line
  | '\n' :: more, rest, line => crossed more rest (lineAfterNewline (more ++ rest) line)
  | _ :: more, rest, line => crossed more rest line

theorem crossed_newline (more rest : List Char) (line : Nat) :
    crossed ('\n' :: more) rest line = crossed more rest (lineAfterNewline (more ++ rest) line) := rfl

theorem crossed_cons {char : Char} (other : char ≠ '\n') (more rest : List Char) (line : Nat) :
    crossed (char :: more) rest line = crossed more rest line := by
  rw [crossed]
  exact other

/-- Crossing two texts is crossing the first in front of the second and then the second. -/
theorem crossed_append (first second rest : List Char) (line : Nat) :
    crossed (first ++ second) rest line = crossed second rest (crossed first (second ++ rest) line) := by
  induction first generalizing line with
  | nil => rfl
  | cons char more ih =>
    by_cases newline : char = '\n'
    · subst newline
      rw [List.cons_append, crossed_newline, crossed_newline, ih, List.append_assoc]
    · rw [List.cons_append, crossed_cons newline, crossed_cons newline, ih]

theorem crossed_cons_eq (char : Char) (more rest : List Char) (line : Nat) :
    crossed (char :: more) rest line = crossed more rest (crossed [char] (more ++ rest) line) :=
  crossed_append [char] more rest line

private theorem skipGap_comment_cons {char : Char} {rest : List Char} (line : Nat)
    (goesOn : ¬ (char = '*' ∧ rest.head? = some '/')) :
    skipGap .comment (char :: rest) line = skipGap .comment rest (crossed [char] rest line) := by
  by_cases newline : char = '\n'
  · subst newline
    rfl
  · rw [crossed_cons newline, crossed, skipGap]
    · rintro later rfl rfl
      exact goesOn ⟨rfl, rfl⟩
    · exact newline

/-- A comment is skipped up to its first closing pair. -/
theorem skipGap_comment {body : List Char} (first : CloseFree (body ++ ['*'])) (rest : List Char)
    (line : Nat) :
    skipGap .comment (body ++ '*' :: '/' :: rest) line =
      skipGap .gap rest (crossed (body ++ ['*', '/']) rest line) := by
  induction body generalizing line with
  | nil => rfl
  | cons char body ih =>
    obtain ⟨notHere, later⟩ := closeFree_cons.mp first
    have goesOn : ¬ (char = '*' ∧ (body ++ '*' :: '/' :: rest).head? = some '/') := by
      cases body with
      | nil => simp
      | cons second body => exact notHere
    rw [List.cons_append, skipGap_comment_cons line goesOn, ih later, List.cons_append,
      crossed_cons_eq char (body ++ ['*', '/'])]
    simp

/-- A comment that is never closed takes up the rest of the source. -/
theorem skipGap_unclosed {text : List Char} (unclosed : CloseFree text) (line : Nat) :
    skipGap .comment text line = .unclosed (crossed text [] line) := by
  induction text generalizing line with
  | nil => rfl
  | cons char rest ih =>
    obtain ⟨goesOn, later⟩ := closeFree_cons.mp unclosed
    rw [skipGap_comment_cons line goesOn, ih later, crossed_cons_eq char rest,
      List.append_nil]

/-- A gap is skipped as far as it goes. -/
theorem skipGap_gap {gap : List Char} (isGap : Gap gap) (rest : List Char) (line : Nat) :
    skipGap .gap (gap ++ rest) line = skipGap .gap rest (crossed gap rest line) := by
  induction isGap generalizing line with
  | empty => rfl
  | blank isBlank _ ih =>
    simp only [blanks, List.mem_cons, List.not_mem_nil, or_false] at isBlank
    obtain rfl | rfl | rfl | rfl := isBlank <;> exact ih _
  | @comment body more first _ ih =>
    have shape : '/' :: '*' :: (body ++ '*' :: '/' :: more) =
        ['/', '*'] ++ (body ++ ['*', '/']) ++ more := by simp
    rw [shape, crossed_append _ more, crossed_append ['/', '*'], ← ih]
    simp only [List.append_assoc, List.cons_append, List.nil_append]
    rw [skipGap, skipGap_comment first]
    rfl

/-- Text that no gap begins is left as it is. -/
theorem skipGap_gapless {rest : List Char} (gapless : Gapless rest) (line : Nat) :
    skipGap .gap rest line = .reached rest line := by
  cases rest with
  | nil => rfl
  | cons char later =>
    have notBlank : char ∉ blanks := gapless.not_blank char rfl
    simp only [blanks, List.mem_cons, List.not_mem_nil, or_false, not_or] at notBlank
    obtain ⟨notSpace, notTab, notReturn, notNewline⟩ := notBlank
    rw [skipGap]
    all_goals simp_all
    rintro inner rfl rfl
    exact gapless.not_comment ⟨inner, rfl⟩

end FrontEnd.Lexer
