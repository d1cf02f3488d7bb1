import FrontEnd.Terminal.Sequence
import FrontEnd.Terminal.Style

/-! # Plain output

Output that does not go to a terminal is freed from escape sequences and from controls other than
white space. The spans of an output are read one after the other, and a sequence that one span
leaves open goes on in the next one. White space within a sequence is shown, and so is the text
that follows it in the same span; the sequence is then taken up again where it was left.
-/

namespace FrontEnd.Terminal

/-- Controls that are white space. -/
def isBlankControl (char : Char) : Bool :=
  char = '\t' || char = '\n' || char = '\x0c' || char = '\r'

/-- Controls that belong to ASCII. -/
def isControl (char : Char) : Bool :=
  char < ' ' || char = '\x7f'

def isVisible (char : Char) : Bool :=
  isBlankControl char || !isControl char

/-- Whether a character does not belong to ASCII. -/
def isWide (char : Char) : Bool :=
  char > '\x7f'

/-- The controls that cancel a sequence. -/
def isCancel (char : Char) : Bool :=
  char = '\x18' || char = '\x1a'

/-- A place in an output. -/
structure Cursor where
  region : Region
  /-- The character before this one belongs to the same span and is shown. -/
  isShowing : Bool
deriving DecidableEq, Repr

namespace Cursor

/-- Where a character leads that does not follow a shown one; it is shown if it lies in text or is
white space within a sequence without a string. -/
def seek (region : Region) (char : Char) : Cursor :=
  if char = '\x1b' then ⟨.escape, false⟩
  else if isCancel char then ⟨.text, false⟩
  else
    match region with
    | .text => ⟨.text, isVisible char⟩
    | .escape | .intermediate | .parameters =>
      if isBlankControl char then ⟨region, true⟩ else ⟨region.next char, false⟩
    | _ => ⟨region.next char, false⟩

/-- Where a character leads. Behind a shown character all that is visible is shown, and a wide
character ends the sequence that was left. -/
def step (cursor : Cursor) (char : Char) : Cursor :=
  if cursor.isShowing && isVisible char then
    ⟨if isWide char then .text else cursor.region, true⟩
  else seek cursor.region char

/-- The characters that are shown, and where they lead. -/
def read (cursor : Cursor) : List Char → List Char × Cursor
  | [] => ([], cursor)
  | char :: rest =>
    let later := cursor.step char
    let (shown, last) := later.read rest
    (if later.isShowing then char :: shown else shown, last)

/-- A visible character in text is shown and leads on in text. -/
theorem step_text {char : Char} (visible : isVisible char = true) (isShowing : Bool) :
    step ⟨.text, isShowing⟩ char = ⟨.text, true⟩ := by
  have notEscape : char ≠ '\x1b' := by rintro rfl; exact absurd visible (by decide)
  have notCancel : isCancel char = false := by
    cases cancel : isCancel char with
    | false => rfl
    | true =>
      rcases (by simpa [isCancel] using cancel : char = '\x18' ∨ char = '\x1a') with rfl | rfl
      · exact absurd visible (by decide)
      · exact absurd visible (by decide)
  cases isShowing <;> simp [step, seek, visible, notEscape, notCancel]

/-- Text of visible characters is shown whole. -/
theorem read_text {chars : List Char} (visible : ∀ char ∈ chars, isVisible char = true)
    (isShowing : Bool) : (read ⟨.text, isShowing⟩ chars).1 = chars ∧
      (read ⟨.text, isShowing⟩ chars).2.region = .text := by
  induction chars generalizing isShowing with
  | nil => exact ⟨rfl, rfl⟩
  | cons char rest ih =>
    have later := ih (fun other member => visible other (List.mem_cons_of_mem _ member)) true
    simp [read, step_text (visible char List.mem_cons_self), later]

end Cursor

/-- The characters of spans that are shown, behind a place in a text or a sequence. -/
def plainFrom (region : Region) : List Span → List Char
  | [] => []
  | span :: rest =>
    let (shown, last) := Cursor.read ⟨region, false⟩ span.styled.toList
    shown ++ plainFrom last.region rest

/-- Spans without their styles and without the sequences and controls in their text. -/
def plain (spans : List Span) : String :=
  String.ofList (plainFrom .text spans)

end FrontEnd.Terminal
