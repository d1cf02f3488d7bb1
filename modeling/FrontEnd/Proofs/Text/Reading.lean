import FrontEnd.Text.Line
import Mathlib.Data.List.Basic
import Mathlib.Data.List.TakeWhile

/-! # Reading text back

How text that was laid out is taken apart again: into the lines that newlines end, and into words
with spaces between them.
-/

namespace FrontEnd.Text

/-! ### Runs of characters -/

/-- Characters of a class are taken up to the first that is not of it. -/
theorem span_append {charClass : Char → Bool} {front after : List Char}
    (within : ∀ char ∈ front, charClass char) (stops : ∀ next ∈ after.head?, ¬ charClass next) :
    (front ++ after).takeWhile charClass = front ∧ (front ++ after).dropWhile charClass = after := by
  rw [List.takeWhile_append_of_pos within, List.dropWhile_append_of_pos within]
  cases after with
  | nil => exact ⟨List.append_nil front, rfl⟩
  | cons next rest =>
    rw [List.takeWhile_cons_of_neg (stops next rfl), List.dropWhile_cons_of_neg (stops next rfl)]
    exact ⟨List.append_nil front, rfl⟩

/-- An indentation ends where there is no further space. -/
theorem span_blanks (width : Nat) {rest : List Char} (unindented : rest.head? ≠ some ' ') :
    (List.replicate width ' ' ++ rest).takeWhile (· = ' ') = List.replicate width ' ' ∧
      (List.replicate width ' ' ++ rest).dropWhile (· = ' ') = rest := by
  apply span_append
  · intro char member
    exact decide_eq_true (List.eq_of_mem_replicate member)
  · intro next first space
    obtain rfl : next = ' ' := of_decide_eq_true space
    exact unindented first

theorem isDigit_of_mem_toString {number : Nat} : ∀ char ∈ (toString number).toList, char.isDigit := by
  intro char member
  rw [Nat.toString_eq_repr, Nat.toList_repr] at member
  exact Nat.isDigit_of_mem_toDigits (by decide) (by decide) member

/-! ### Lines -/

/-- Lines that are each ended by a newline are what stands between the newlines. -/
theorem dropLast_splitOn_join {rows : List (List Char)} (single : ∀ row ∈ rows, '\n' ∉ row) :
    ((rows.flatMap (· ++ ['\n'])).splitOn '\n').dropLast = rows := by
  induction rows with
  | nil => rfl
  | cons row rest ih =>
    obtain ⟨here, later⟩ := List.forall_mem_cons.mp single
    rw [List.flatMap_cons, List.append_assoc, List.singleton_append,
      List.splitOn_append_cons_self_of_not_mem here,
      List.dropLast_cons_of_ne_nil (List.splitOn_ne_nil _ _), ih later]

/-- A text made of lines. Each is ended by a newline, alone or behind a carriage return, except that
the last one may be ended by the text itself. -/
inductive HasLines : List Char → List (List Char) → Prop where
  | empty : HasLines [] []
  | last {line : List Char} (single : '\n' ∉ line) (nonempty : line ≠ []) : HasLines line [line]
  | newline {line rest : List Char} {later : List (List Char)} (single : '\n' ∉ line)
      (bare : line.getLast? ≠ some '\r') (behind : HasLines rest later) :
      HasLines (line ++ '\n' :: rest) (line :: later)
  | returned {line rest : List Char} {later : List (List Char)} (single : '\n' ∉ line)
      (behind : HasLines rest later) : HasLines (line ++ '\r' :: '\n' :: rest) (line :: later)

theorem HasLines.newline_not_mem {text : List Char} {lines : List (List Char)}
    (hasLines : HasLines text lines) : ∀ line ∈ lines, '\n' ∉ line := by
  induction hasLines with
  | empty => exact List.forall_mem_nil _
  | last single => exact List.forall_mem_singleton.mpr single
  | newline single _ _ ih | returned single _ ih => exact List.forall_mem_cons.mpr ⟨single, ih⟩

/-- A character in front of a text that begins with no line ending begins its first line. -/
theorem HasLines.cons {text : List Char} {lines : List (List Char)} {char : Char}
    (hasLines : HasLines text lines) (notNewline : char ≠ '\n')
    (noReturn : ∀ rest, char = '\r' → text ≠ '\n' :: rest) :
    HasLines (char :: text) ((char :: lines.headD []) :: lines.tail) := by
  have single {line : List Char} (rest : '\n' ∉ line) : '\n' ∉ char :: line :=
    List.not_mem_cons_of_ne_of_not_mem notNewline.symm rest
  cases hasLines with
  | empty => exact .last (single List.not_mem_nil) (List.cons_ne_nil _ _)
  | last rest => exact .last (single rest) (List.cons_ne_nil _ _)
  | @newline line rest later here bare behind =>
    have opens : (char :: line).getLast? ≠ some '\r' := by
      intro returned
      cases line with
      | nil => exact noReturn rest (Option.some.inj returned) rfl
      | cons => exact bare returned
    exact .newline (single here) opens behind
  | returned here behind => exact .returned (single here) behind

/-- The lines of a text are those that it is made of. -/
theorem hasLines_lines (text : List Char) : HasLines text (lines text) := by
  fun_induction lines text with
  | case1 => exact .empty
  | case2 rest ih => exact .newline List.not_mem_nil (by decide) ih
  | case3 rest ih => exact .returned List.not_mem_nil ih
  | case4 char rest notNewline noReturn none ih =>
    have begun := ih.cons notNewline noReturn
    rwa [none] at begun
  | case5 char rest notNewline noReturn line later some ih =>
    have begun := ih.cons notNewline noReturn
    rwa [some] at begun

theorem map_numberedLines (text : List Char) :
    (numberedLines text).map (fun numbered => numbered.2.toList) = lines text := by
  have unnumbered : (fun numbered : Nat × String => numbered.2.toList) ∘
      (fun indexed : List Char × Nat => (indexed.2 + 1, String.ofList indexed.1)) = Prod.fst := by
    funext indexed
    exact String.toList_ofList
  rw [numberedLines, List.map_map]
  exact (congrArg (List.map · _) unnumbered).trans (List.zipIdx_map_fst ..)

/-! ### Words -/

def word (text : List Char) : List Char :=
  (text.dropWhile (· = ' ')).takeWhile (· ≠ ' ')

def pastWord (text : List Char) : List Char :=
  (text.dropWhile (· = ' ')).dropWhile (· ≠ ' ')

theorem word_append (lead : Nat) {first rest : List Char} (nonempty : first ≠ [])
    (plain : ' ' ∉ first) (apart : ∀ next ∈ rest.head?, next = ' ') :
    let text := List.replicate lead ' ' ++ (first ++ rest)
    word text = first ∧ pastWord text = rest := by
  intro text
  have begins : (first ++ rest).head? ≠ some ' ' := by
    rw [List.head?_append_of_ne_nil _ nonempty]
    exact fun space => plain (List.mem_of_mem_head? space)
  have skipped : text.dropWhile (· = ' ') = first ++ rest := (span_blanks lead begins).2
  have within : ∀ char ∈ first, decide (char ≠ ' ') = true :=
    fun char member => decide_eq_true fun same => plain (same ▸ member)
  have ends : ∀ next ∈ rest.head?, ¬ decide (next ≠ ' ') = true :=
    fun next follows => by simpa using apart next follows
  rw [word, pastWord, skipped]
  exact span_append within ends

/-- Nothing but spaces has no word in it. -/
theorem word_replicate (width : Nat) : word (List.replicate width ' ') = [] := by
  rw [word, List.dropWhile_replicate]
  rfl

end FrontEnd.Text
