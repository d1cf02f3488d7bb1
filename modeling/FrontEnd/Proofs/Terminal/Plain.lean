import FrontEnd.Terminal.Notice
import FrontEnd.Terminal.Plain

/-! # What is left of styled text

Without a terminal nothing is left of the styles of a text. If it holds no controls then all of it is
shown, and what follows is read as text again. So the title of a notice is always shown, and so are
its body and its hint if they hold no controls.
-/

namespace FrontEnd.Terminal

/-- A text that holds no controls but white space. -/
def Visible (text : String) : Prop :=
  ∀ char ∈ text.toList, isVisible char = true

instance (text : String) : Decidable (Visible text) :=
  decidable_of_iff (text.toList.all isVisible = true) List.all_eq_true

theorem Visible.append {first second : String} (visible : Visible first)
    (visible' : Visible second) : Visible (first ++ second) := by
  intro char member
  rw [String.toList_append, List.mem_append] at member
  exact member.elim (visible char) (visible' char)

/-- What is shown of characters that stand in text and lead back to text. -/
def Shows (chars shown : List Char) : Prop :=
  ∀ isShowing, ∃ last, Cursor.read ⟨.text, isShowing⟩ chars = (shown, ⟨.text, last⟩)

theorem Cursor.read_append (cursor : Cursor) (first second : List Char) :
    cursor.read (first ++ second) =
      ((cursor.read first).1 ++ ((cursor.read first).2.read second).1,
        ((cursor.read first).2.read second).2) := by
  induction first generalizing cursor with
  | nil => rfl
  | cons char rest ih =>
    simp only [List.cons_append, read, ih]
    split <;> rfl

theorem Shows.append {first second shown shown' : List Char} (shows : Shows first shown)
    (shows' : Shows second shown') : Shows (first ++ second) (shown ++ shown') := by
  intro isShowing
  obtain ⟨middle, read⟩ := shows isShowing
  obtain ⟨last, read'⟩ := shows' middle
  exact ⟨last, by rw [Cursor.read_append, read, read']⟩

theorem Visible.shows {text : String} (visible : Visible text) : Shows text.toList text.toList := by
  intro isShowing
  obtain ⟨shown, region⟩ := Cursor.read_text visible isShowing
  generalize Cursor.read ⟨.text, isShowing⟩ text.toList = result at shown region ⊢
  obtain ⟨_, _, last⟩ := result
  cases shown
  cases region
  exact ⟨last, rfl⟩

/-- The codes that switch styles on and off. -/
def styleCodes : List String :=
  ["0", "1", "2", "3", "31", "32", "33", "34", "36", "39", "91"]

/-- Switches of style are not shown. -/
theorem shows_select {code : String} (listed : code ∈ styleCodes) : Shows (select code).toList [] := by
  intro isShowing
  refine ⟨false, ?_⟩
  revert code
  cases isShowing <;> decide +kernel

/-- What stands between two switches is shown as it would be without them. -/
theorem Shows.switched {inner code reset : String} {shown : List Char}
    (shows : Shows inner.toList shown) (listed : code ∈ styleCodes) (listed' : reset ∈ styleCodes) :
    Shows (select code ++ inner ++ select reset).toList shown := by
  rw [String.toList_append, String.toList_append]
  simpa using ((shows_select listed).append shows).append (shows_select listed')

/-- Of a span without controls its text is shown. -/
theorem shows_styled {span : Span} (visible : Visible span.text) :
    Shows span.styled.toList span.text.toList := by
  obtain ⟨text, weight, colour⟩ := span
  have weighted (weight : Weight) :
      Shows (select weight.code ++ text ++ select "0").toList text.toList :=
    visible.shows.switched (by cases weight <;> decide) (by decide)
  have coloured (colour : Colour) {inner : String} (shows : Shows inner.toList text.toList) :
      Shows (select colour.code ++ inner ++ select "39").toList text.toList :=
    shows.switched (by cases colour <;> decide) (by decide)
  cases weight with
  | none =>
    cases colour with
    | none => exact visible.shows
    | some colour => exact coloured colour visible.shows
  | some weight =>
    cases colour with
    | none => exact weighted weight
    | some colour => exact coloured colour (weighted weight)

/-- Spans without controls are shown, whatever follows them. -/
theorem plain_append {spans : List Span} (visible : ∀ span ∈ spans, Visible span.text)
    (rest : List Span) :
    plain (spans ++ rest) = String.join (spans.map Span.text) ++ plain rest := by
  induction spans with
  | nil => exact String.empty_append.symm
  | cons span later ih =>
    obtain ⟨last, read⟩ := shows_styled (visible span (List.mem_cons_self ..)) false
    have behind := ih fun other member => visible other (List.mem_cons_of_mem _ member)
    calc plain (span :: later ++ rest)
        = span.text ++ plain (later ++ rest) := by
          rw [plain, List.cons_append, plainFrom, read]
          dsimp only
          rw [String.ofList_append, String.ofList_toList, plain]
      _ = _ := by rw [behind, List.map_cons, String.join_cons, String.append_assoc]

/-- What is shown of a span does not depend on what follows it. -/
theorem plain_cons (span : Span) (rest : List Span) :
    ∃ later, plain (span :: rest) = plain [span] ++ later := by
  refine ⟨String.ofList (plainFrom (Cursor.read ⟨.text, false⟩ span.styled.toList).2.region rest), ?_⟩
  simp only [plain, plainFrom, List.append_nil, String.ofList_append]

namespace Notice

def titleSpans (notice : Notice) : List Span :=
  [notice.severity.mark, { text := ":", weight := some .bold }, { text := " " },
    { text := notice.title, weight := some .bold }, { text := "\n" }]

def hintSpans (notice : Notice) : List Span :=
  match notice.hint with
  | none => []
  | some hint =>
    [⟨"hint:", some .italic, some .cyan⟩, { text := " " }, { text := hint }, { text := "\n" }]

/-- What a notice has to say behind its title. -/
def tellingSpans (notice : Notice) : List Span :=
  (if notice.body.isEmpty then [] else [{ text := notice.body }, { text := "\n" }]) ++
    notice.hintSpans

theorem spans_eq (notice : Notice) : notice.spans = notice.titleSpans ++ notice.tellingSpans :=
  List.append_assoc ..

/-- The title is shown, whatever stands in the rest of a notice. -/
theorem plain_title {notice : Notice} (titled : Visible notice.title) (rest : List Span) :
    plain (notice.spans ++ rest) =
      notice.severity.mark.text ++ ": " ++ notice.title ++ "\n" ++
        plain (notice.tellingSpans ++ rest) := by
  have visible : ∀ span ∈ notice.titleSpans, Visible span.text := by
    have mark : Visible notice.severity.mark.text := by cases notice.severity <;> decide
    simp only [titleSpans, List.forall_mem_cons]
    exact ⟨mark, by decide, by decide, titled, by decide, nofun⟩
  have colon (text : String) : ":" ++ (" " ++ text) = ": " ++ text := (String.append_assoc ..).symm
  rw [spans_eq, List.append_assoc, plain_append visible]
  simp [titleSpans, String.append_assoc, colon]

/-- Of the body of a notice all is shown that is not a control or a sequence. -/
theorem plain_body {notice : Notice} (present : notice.body ≠ "") (rest : List Span) :
    ∃ later, plain (notice.tellingSpans ++ rest) = plain [{ text := notice.body }] ++ later := by
  have bodied : notice.body.isEmpty = false := by simpa using present
  simp only [tellingSpans, bodied]
  exact plain_cons _ _

def hintLine (notice : Notice) : String :=
  match notice.hint with
  | none => ""
  | some hint => "hint: " ++ hint ++ "\n"

theorem plain_hint {notice : Notice} (hinted : ∀ hint ∈ notice.hint, Visible hint)
    (rest : List Span) : plain (notice.hintSpans ++ rest) = notice.hintLine ++ plain rest := by
  cases hint : notice.hint with
  | none =>
    simp only [hintSpans, hintLine, hint]
    exact String.empty_append.symm
  | some text =>
    have visible : ∀ span ∈ notice.hintSpans, Visible span.text := by
      simp only [hintSpans, hint, List.forall_mem_cons]
      exact ⟨by decide, by decide, hinted text hint, by decide, nofun⟩
    have colon (text : String) : "hint:" ++ (" " ++ text) = "hint: " ++ text :=
      (String.append_assoc ..).symm
    rw [plain_append visible]
    simp [hintSpans, hintLine, hint, String.append_assoc, colon]

/-- A body and a hint without controls are shown whole. -/
theorem plain_telling {notice : Notice} (told : Visible notice.body) (present : notice.body ≠ "")
    (hinted : ∀ hint ∈ notice.hint, Visible hint) (rest : List Span) :
    plain (notice.tellingSpans ++ rest) = notice.body ++ "\n" ++ notice.hintLine ++ plain rest := by
  have bodied : notice.body.isEmpty = false := by simpa using present
  have visible : ∀ span ∈ [({ text := notice.body } : Span), { text := "\n" }],
      Visible span.text := by
    simp only [List.forall_mem_cons]
    exact ⟨told, by decide, nofun⟩
  calc plain (notice.tellingSpans ++ rest)
      = plain ([{ text := notice.body }, { text := "\n" }] ++ (notice.hintSpans ++ rest)) := by
        simp only [tellingSpans, bodied, Bool.false_eq_true, ↓reduceIte, List.append_assoc]
    _ = notice.body ++ "\n" ++ notice.hintLine ++ plain rest := by
        rw [plain_append visible, plain_hint hinted]
        simp [String.append_assoc]

end Notice

end FrontEnd.Terminal
