import FrontEnd.Proofs.Lexer.RoundTrip
import FrontEnd.Text.Line

/-! # The lines of tokens

A lexeme is on the line that the newlines before it lead to. The end of the file and an open comment
are on the last line, wherever that comment begins: a newline that ends the source begins no line,
neither for the lexer nor when a text is taken apart into its lines. So `tokens_lines` ties the line
of every token to the text before it and to the number of lines.
-/

namespace FrontEnd

/-- Every newline begins a line, but for one that ends the text. -/
theorem Text.length_lines {text : List Char} (nonempty : text ≠ []) :
    (lines text).length = text.dropLast.count '\n' + 1 := by
  fun_induction lines text with
  | case1 => exact absurd rfl nonempty
  | case2 rest ih | case3 rest ih =>
    cases rest with
    | nil => rfl
    | cons next rest => simp [ih]
  | case4 char rest _ _ none ih =>
    cases rest with
    | nil => rfl
    | cons next rest =>
      have one := ih (by simp)
      rw [none] at one
      cases one
  | case5 char rest notNewline _ line later some ih =>
    cases rest with
    | nil => cases some
    | cons next rest =>
      have more := ih (by simp)
      rw [some] at more
      rw [List.dropLast_cons_of_ne_nil (by simp), List.count_cons_of_ne notNewline, ← more]
      rfl

namespace Lexer

open Piece

/-! ### Crossing text -/

/-- In front of more text every newline leads to a further line. -/
theorem crossed_before {rest : List Char} (more : rest ≠ []) (text : List Char) (line : Nat) :
    crossed text rest line = line + text.count '\n' := by
  induction text generalizing line with
  | nil => rfl
  | cons char text ih =>
    by_cases newline : char = '\n'
    · subst newline
      have follows : (text ++ rest).isEmpty = false := by simp [more]
      rw [crossed_newline, ih, lineAfterNewline, follows, List.count_cons_self]
      simp only [Bool.false_eq_true, ↓reduceIte]
      omega
    · rw [crossed_cons newline, ih, List.count_cons_of_ne newline]

theorem crossed_of_not_mem {text : List Char} (single : '\n' ∉ text) (rest : List Char) (line : Nat) :
    crossed text rest line = line := by
  induction text with
  | nil => rfl
  | cons char text ih =>
    obtain ⟨other, later⟩ := List.ne_and_not_mem_of_not_mem_cons single
    rw [crossed_cons other.symm, ih later]

/-- At the end of a source the last newline leads nowhere if it is the last character. -/
theorem crossed_to_end (text : List Char) (line : Nat) :
    crossed text [] line = line + text.dropLast.count '\n' := by
  rcases List.eq_nil_or_concat' text with rfl | ⟨front, last, rfl⟩
  · rfl
  · have atEnd : crossed [last] [] (line + front.count '\n') = line + front.count '\n' := by
      by_cases newline : last = '\n'
      · subst newline
        rfl
      · rw [crossed_cons newline, crossed]
    have ahead : crossed front [last] line = line + front.count '\n' := crossed_before (by simp) front line
    rw [crossed_append, List.append_nil, ahead, atEnd, List.dropLast_concat]

/-- No lexeme has a blank in it. -/
theorem Lexeme.not_blank {kind : Token.Kind} {text : List Char} (lexeme : Lexeme kind text) :
    ∀ char ∈ text, char ∉ blanks := by
  have unusable : ∀ blank ∈ blanks, ¬ blank.isAlpha ∧ ¬ blank.isDigit ∧ blank ≠ '=' ∧
      pairKind? blank = none ∧ glyphKind? blank = none := by
    simp only [blanks, List.forall_mem_cons, List.not_mem_nil, false_implies, implies_true]
    decide
  intro char member isBlank
  obtain ⟨notLetter, notDigit, notEquals, noPair, noGlyph⟩ := unusable char isBlank
  cases lexeme with
  | regular isRegular =>
    cases isRegular with
    | fixed spelled =>
      obtain ⟨first, letters, spelling, alphabetic, -⟩ | ⟨first, spelling, -, -, pair⟩ |
        ⟨first, spelling, -, -, glyph, -⟩ := fixed_cases spelled
      · rw [spelling] at member
        exact notLetter (alphabetic _ member)
      · rw [spelling] at member
        obtain rfl | same := List.mem_pair.mp member
        · rw [noPair] at pair
          cases pair
        · exact notEquals same
      · rw [spelling] at member
        obtain rfl := List.mem_singleton.mp member
        rw [noGlyph] at glyph
        cases glyph
    | identifier _ letters _ => exact notLetter (letters _ member)
    | number _ decimal => exact notDigit (decimal _ member)
  | exclamation =>
    obtain rfl := List.mem_singleton.mp member
    exact absurd isBlank (by decide)
  | stray _ noGap =>
    obtain rfl := List.mem_singleton.mp member
    exact noGap [] (.blank isBlank .empty)

/-- No lexeme goes beyond its line. -/
theorem Lexeme.newline_not_mem {kind : Token.Kind} {text : List Char} (lexeme : Lexeme kind text) :
    '\n' ∉ text :=
  fun member => lexeme.not_blank _ member (by decide)

/-! ### Lines of tokens -/

def Piece.onLine (piece : Piece) (line : Nat) : Token :=
  ⟨piece.kind, String.ofList piece.text, line⟩

variable {ending : List Char}

/-- What is read from pieces is on the lines that the newlines before each of them lead to. -/
theorem read_eq {pieces : List Piece} (valid : ∀ piece ∈ pieces, piece.Valid) (lead : List Char)
    (line : Nat) :
    Piece.read ending lead line pieces =
      (pieces.mapIdx fun index piece =>
        piece.onLine (line + (lead ++ weave [] (pieces.take index)).count '\n')) ++
        closing ending (crossed (lead ++ weave ending pieces) [] line) := by
  induction pieces generalizing lead line with
  | nil => rfl
  | cons piece rest ih =>
    obtain ⟨first, later⟩ := List.forall_mem_cons.mp valid
    have single := first.lexeme.newline_not_mem
    have more : weave ending (piece :: rest) ≠ [] := by
      simp [weave, first.lexeme.ne_nil]
    have here := crossed_before more lead line
    have last : crossed (lead ++ weave ending (piece :: rest)) [] line =
        crossed (piece.gap ++ weave ending rest) [] (line + lead.count '\n') := by
      rw [crossed_append, List.append_nil, here, weave, crossed_append, crossed_of_not_mem single]
    simp only [Piece.read, here, ih later, last]
    simp only [List.mapIdx_cons, List.take_zero, List.take_succ_cons, weave, List.count_append,
      List.count_nil, List.count_eq_zero.mpr single, Nat.zero_add, Nat.add_zero, Nat.add_assoc]
    rfl

theorem le_crossed (text rest : List Char) (line : Nat) : line ≤ crossed text rest line := by
  cases rest with
  | nil => rw [crossed_to_end]; exact Nat.le_add_right _ _
  | cons next rest => rw [crossed_before (by simp)]; exact Nat.le_add_right _ _

/-- Lines never decrease along what is read. -/
theorem read_sorted (lead : List Char) (line : Nat) (pieces : List Piece) :
    (∀ token ∈ Piece.read ending lead line pieces, line ≤ token.line) ∧
      (Piece.read ending lead line pieces).Pairwise fun earlier later => earlier.line ≤ later.line := by
  induction pieces generalizing lead line with
  | nil =>
    have bound := le_crossed (lead ++ ending) [] line
    simp only [Piece.read, closing]
    split <;> simp [bound]
  | cons piece rest ih =>
    have bound := le_crossed lead (weave ending (piece :: rest)) line
    obtain ⟨above, sorted⟩ := ih piece.gap (crossed lead (weave ending (piece :: rest)) line)
    exact ⟨List.forall_mem_cons.mpr ⟨bound, fun token member => bound.trans (above token member)⟩,
      List.pairwise_cons.mpr ⟨above, sorted⟩⟩

/-- A status that tokens were taken on is on the line of the last one. -/
theorem line_drain (session : Session Lexer) :
    session.drain.1.getLast?.map Token.line = some session.drain.2.status.line := by
  have line_pull (session : Session Lexer) : session.pull.2.status.line = session.pull.1.line :=
    line_observe session.scanner.step.1 session.status
  induction session using Session.drain_induction with
  | last session last =>
    rw [Session.drain_last last, line_pull]
    rfl
  | more session more ih =>
    obtain ⟨token, last, _⟩ := Option.map_eq_some_iff.mp ih
    rw [Session.drain_more more, List.getLast?_cons, ← ih, last]
    rfl

theorem getLast?_closing (ending : List Char) (line : Nat) :
    (closing ending line).getLast? = some ⟨.endOfFile, "", line⟩ := by
  unfold closing
  split <;> rfl

theorem line_of_mem_closing {ending : List Char} {line : Nat} :
    ∀ token ∈ closing ending line, token.line = line := by
  unfold closing
  split <;> simp

section

variable {lead : List Char} {pieces : List Piece} {source : String} (isEnding : IsEnding ending)
  (gap : Gap lead) (valid : ∀ piece ∈ pieces, piece.Valid) (longest : Longest ending pieces)
  (woven : source.toList = lead ++ weave ending pieces) (status : Status)

include isEnding gap valid longest woven

theorem tokens_eq_read :
    (tokens source status).1 =
      Piece.read ending lead (if source.toList.isEmpty then 0 else 1) pieces := by
  rw [tokens, session, ofSource, woven]
  exact drain_weave isEnding valid longest gap _ status []

/-- The tokens of a woven source are on the lines of its pieces, and the last ones are on the last
line. -/
theorem tokens_eq :
    (tokens source status).1 =
      (pieces.mapIdx fun index piece =>
        piece.onLine (1 + (lead ++ weave [] (pieces.take index)).count '\n')) ++
        closing ending (Text.lines source.toList).length := by
  rw [tokens_eq_read isEnding gap valid longest woven, read_eq valid, ← woven, crossed_to_end]
  by_cases empty : source.toList = []
  · -- An empty source has no pieces, so it does not matter that it has no first line either.
    cases pieces with
    | nil => simp [empty, Text.lines]
    | cons piece rest =>
      have nonempty := (valid piece (List.mem_cons_self ..)).lexeme.ne_nil
      simp [empty, weave, nonempty] at woven
  · have start : source.toList.isEmpty = false := by simpa using empty
    rw [start, Text.length_lines empty, Nat.add_comm _ 1]
    rfl

end

/-- Every source is a gap, then lexemes with gaps behind them, then nothing or a comment that is
never closed. The tokens are these lexemes in order, each on the line that the newlines before it
lead to, and then those of the ending, on the last line of the source. So lines never decrease and
are never more than there are, and the scan leaves the status on the last line. -/
theorem tokens_lines (source : String) (status : Status) :
    let scanned := tokens source status
    let count := (Text.lines source.toList).length
    ∃ lead pieces ending, Gap lead ∧ (∀ piece ∈ pieces, piece.Valid) ∧ Longest ending pieces ∧
      IsEnding ending ∧ source.toList = lead ++ weave ending pieces ∧
      scanned.1 =
        (pieces.mapIdx fun index piece =>
          piece.onLine (1 + (lead ++ weave [] (pieces.take index)).count '\n')) ++
          closing ending count ∧
      scanned.1.Pairwise (fun earlier later => earlier.line ≤ later.line) ∧
      (∀ token ∈ scanned.1, token.line ≤ count) ∧ scanned.2.status.line = count := by
  intro scanned count
  obtain ⟨lead, pieces, ending, gap, valid, longest, isEnding, woven⟩ := exists_weave source.toList
  have onLines := tokens_eq isEnding gap valid longest woven status
  have sorted : scanned.1.Pairwise fun earlier later => earlier.line ≤ later.line := by
    rw [show scanned.1 = _ from tokens_eq_read isEnding gap valid longest woven status]
    exact (read_sorted lead _ pieces).2
  have last : (⟨.endOfFile, "", count⟩ : Token) ∈ closing ending count :=
    List.mem_of_getLast? (getLast?_closing ending count)
  refine ⟨lead, pieces, ending, gap, valid, longest, isEnding, woven, onLines, sorted, ?_, ?_⟩
  · rw [onLines] at sorted ⊢
    intro token member
    obtain front | back := List.mem_append.mp member
    · exact (List.pairwise_append.mp sorted).2.2 token front _ last
    · exact (line_of_mem_closing token back).le
  · have left := line_drain (session source status)
    change scanned.1.getLast?.map Token.line = some scanned.2.status.line at left
    have nonempty : closing ending count ≠ [] := List.ne_nil_of_mem last
    rw [onLines, List.getLast?_append_of_ne_nil _ nonempty, getLast?_closing] at left
    exact (Option.some.inj left).symm

/-- A comment that is never closed is on the last line, wherever it begins. -/
example : (tokens "x /*\n\n" {}).1.map Token.line = [1, 2, 2] := by decide +kernel

end Lexer

end FrontEnd
