/-! # Lines of text

A line ends at a newline, and a carriage return directly before that newline belongs to the line
ending too. Text after the last newline is a line of its own, and there is no line after a
newline that ends the text.
-/

namespace FrontEnd.Text

/-- The lines of a text, without their endings. -/
def lines : List Char → List (List Char)
  | [] => []
  | '\n' :: rest => [] :: lines rest
  | '\r' :: '\n' :: rest => [] :: lines rest
  | char :: rest =>
    match lines rest with
    | [] => [[char]]
    | line :: later => (char :: line) :: later

/-- The lines of a text with their numbers, counted from one. -/
def numberedLines (text : List Char) : List (Nat × String) :=
  (lines text).zipIdx.map fun (line, index) => (index + 1, String.ofList line)

/-- Text without a newline is a single line, unless it is empty. -/
theorem lines_of_not_mem {text : List Char} (single : '\n' ∉ text) (nonempty : text ≠ []) :
    lines text = [text] := by
  induction text with
  | nil => exact absurd rfl nonempty
  | cons char rest ih =>
    have notNewline : char ≠ '\n' := fun same => single (by simp [same])
    have restSingle : '\n' ∉ rest := fun member => single (List.mem_cons_of_mem _ member)
    cases rest with
    | nil =>
      rw [lines] <;> simp_all [lines]
    | cons second later =>
      have notSecond : second ≠ '\n' := fun same => restSingle (by simp [same])
      rw [lines, ih restSingle (by simp)] <;> simp_all

end FrontEnd.Text
