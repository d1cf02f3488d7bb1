import FrontEnd.Proofs.Lexer.Line

/-! # Sources split at a newline

A newline ends every lexeme and goes on with every gap, so the text behind it is scanned as if it
were a source of its own, but on later lines. This does not hold inside a comment, nor of the text
before the newline if that is taken by itself: there its last newline may lead to no line.
-/

namespace FrontEnd

/-- A token that stands a number of lines further down. -/
def Token.lower (lines : Nat) (token : Token) : Token :=
  { token with line := token.line + lines }

namespace Lexer

open Piece

theorem any_isFault_lower (lines : Nat) (tokens : List Token) :
    ((tokens.map (Token.lower lines)).any fun token => token.kind.isFault) =
      tokens.any fun token => token.kind.isFault := by
  rw [List.any_map]
  rfl

/-! ### Later lines -/

theorem crossed_add (text rest : List Char) (line lines : Nat) :
    crossed text rest (line + lines) = crossed text rest line + lines := by
  cases rest with
  | nil => rw [crossed_to_end, crossed_to_end, Nat.add_right_comm]
  | cons next rest =>
    rw [crossed_before (by simp), crossed_before (by simp), Nat.add_right_comm]

/-- What is read from a later line on is the same, on later lines. -/
theorem read_add (ending lead : List Char) (line lines : Nat) (pieces : List Piece) :
    Piece.read ending lead (line + lines) pieces =
      (Piece.read ending lead line pieces).map (Token.lower lines) := by
  induction pieces generalizing lead line with
  | nil =>
    simp only [Piece.read, crossed_add, closing]
    split <;> rfl
  | cons piece rest ih =>
    simp only [Piece.read, crossed_add, ih, List.map_cons]
    rfl

/-- A lexer that starts on a later line hands out the same tokens, on later lines. -/
theorem drain_add (rest : List Char) (line lines : Nat) (status later : Status)
    (journal entries : List Journal.Entry) :
    (Session.drain ⟨(⟨rest, line + lines⟩ : Lexer), status, journal⟩).1 =
      (Session.drain ⟨(⟨rest, line⟩ : Lexer), later, entries⟩).1.map (Token.lower lines) := by
  obtain ⟨lead, pieces, ending, gap, valid, longest, isEnding, rfl⟩ := exists_weave rest
  rw [drain_weave isEnding valid longest gap, drain_weave isEnding valid longest gap, read_add]

/-! ### Text behind a newline -/

theorem Gap.append {first second : List Char} (gap : Gap first) (more : Gap second) :
    Gap (first ++ second) := by
  induction gap with
  | empty => exact more
  | blank isBlank _ ih => exact .blank isBlank ih
  | comment first _ ih => simpa using Gap.comment first ih

/-- A gap in front of a text makes no difference but for the line. -/
theorem step_gap {gap : List Char} (isGap : Gap gap) (rest : List Char) (line : Nat) :
    step ⟨gap ++ rest, line⟩ = step ⟨rest, crossed gap rest line⟩ := by
  simp only [step, skipGap_gap isGap]

/-- Lexers that do the same in their next step are drained of the same tokens. -/
theorem drain_congr {lexer other : Lexer} (same : lexer.step = other.step) (status : Status)
    (journal : List Journal.Entry) :
    Session.drain ⟨lexer, status, journal⟩ = Session.drain ⟨other, status, journal⟩ := by
  have pulled : Session.pull ⟨lexer, status, journal⟩ = Session.pull ⟨other, status, journal⟩ := by
    simp only [Session.pull, Scanner.next, same]
  by_cases last : (Session.pull ⟨other, status, journal⟩).1.kind = .endOfFile
  · rw [Session.drain_last last, Session.drain_last (by rwa [pulled]), pulled]
  · rw [Session.drain_more last, Session.drain_more (by rwa [pulled]), pulled]

theorem weave_append (front ending : List Char) (pieces : List Piece) :
    weave (front ++ ending) pieces = weave front pieces ++ ending := by
  induction pieces with
  | nil => rfl
  | cons piece later ih => simp only [weave, ih, List.append_assoc]

/-- A lexeme that the end of a source ends is ended by a gap as well. -/
theorem longest_gap {gap : List Char} (isGap : Gap gap) (nonempty : gap ≠ []) (rest : List Char)
    {pieces : List Piece} (longest : Longest [] pieces) : Longest (gap ++ rest) pieces := by
  induction pieces with
  | nil => trivial
  | cons piece later ih =>
    refine ⟨fun next follows => ?_, ih longest.2⟩
    have behind : piece.gap ++ weave (gap ++ rest) later =
        (piece.gap ++ weave [] later) ++ (gap ++ rest) := by
      rw [← List.nil_append (gap ++ rest), weave_append, List.append_assoc]
      rfl
    rw [behind] at follows
    cases within : piece.gap ++ weave [] later with
    | nil =>
      rw [within] at follows
      exact isGap.not_prolongs nonempty next follows
    | cons first more =>
      rw [within] at follows
      refine longest.1 next ?_
      rw [within]
      exact follows

/-- What a lexer is drained of does not depend on what was scanned before. -/
theorem drain_status (lexer : Lexer) (status later : Status) (journal entries : List Journal.Entry) :
    (Session.drain ⟨lexer, status, journal⟩).1 = (Session.drain ⟨lexer, later, entries⟩).1 := by
  have unmoved := drain_add lexer.rest lexer.line 0 status later journal entries
  have lowered : Token.lower 0 = id := rfl
  rwa [lowered, List.map_id] at unmoved

/-- In front of a newline the lexemes are those of the text before it, and the text behind it is
scanned from the line that the newlines lead to. -/
theorem drain_newline {pieces : List Piece} (valid : ∀ piece ∈ pieces, piece.Valid)
    (longest : Longest [] pieces) {lead rest : List Char} (gap : Gap lead) (more : rest ≠ [])
    (line : Nat) (status : Status) (journal : List Journal.Entry) :
    let lines := (lead ++ weave [] pieces).count '\n' + 1
    ∃ front last, Piece.read [] lead line pieces = front ++ [last] ∧ last.kind = .endOfFile ∧
      (Session.drain ⟨(⟨lead ++ weave ('\n' :: rest) pieces, line⟩ : Lexer), status, journal⟩).1 =
        front ++ (Session.drain ⟨(⟨rest, line + lines⟩ : Lexer), status, journal⟩).1 := by
  have newline : Gap ['\n'] := .blank (by decide) .empty
  induction pieces generalizing lead line status journal with
  | nil =>
    have stepped := step_gap (gap.append newline) rest line
    have counted : (lead ++ ['\n']).count '\n' = (lead ++ weave [] []).count '\n' + 1 := by
      simp [weave]
    rw [crossed_before more, counted] at stepped
    refine ⟨[], _, rfl, rfl, ?_⟩
    rw [← drain_congr stepped, List.nil_append, weave, List.append_assoc]
    rfl
  | cons piece pieces ih =>
    obtain ⟨first, others⟩ := List.forall_mem_cons.mp valid
    have single := first.lexeme.newline_not_mem
    have nonempty (ending : List Char) : weave ending (piece :: pieces) ≠ [] := by
      simp [weave, first.lexeme.ne_nil]
    have prolonged : Longest ('\n' :: rest) (piece :: pieces) :=
      longest_gap newline (by simp) rest longest
    have stepped := step_piece gap first prolonged line
    rw [crossed_before (nonempty _)] at stepped
    obtain ⟨status', journal', drained⟩ := drain_of_more stepped first.lexeme.kind_ne.1 status journal
    obtain ⟨front, last, read, isLast, split⟩ :=
      ih others longest.2 first.gap (line + lead.count '\n') status' journal'
    have counted : (lead ++ weave [] (piece :: pieces)).count '\n' =
        lead.count '\n' + (piece.gap ++ weave [] pieces).count '\n' := by
      simp [weave, List.count_eq_zero.mpr single]
    refine ⟨piece.onLine (line + lead.count '\n') :: front, last, ?_, isLast, ?_⟩
    · rw [Piece.read, crossed_before (nonempty _), read]
      rfl
    · rw [drained, split, drain_status _ status' status journal' journal, counted]
      simp only [Nat.add_assoc]
      rfl

theorem flagged_tokens (source : String) (status : Status) :
    (tokens source status).2.status.flagged =
      (status.flagged || (tokens source status).1.any fun token => token.kind.isFault) :=
  flagged_drain (session source status)

/-- A source with no open comment is a gap and pieces, and nothing behind them. -/
theorem exists_pieces {source : String} {status : Status}
    (closed : ∀ token ∈ (tokens source status).1, token.kind ≠ .openComment) :
    ∃ lead pieces, Gap lead ∧ (∀ piece ∈ pieces, piece.Valid) ∧ Longest [] pieces ∧
      source.toList = lead ++ weave [] pieces := by
  obtain ⟨lead, pieces, ending, gap, valid, longest, isEnding, woven⟩ := exists_weave source.toList
  have scanned := tokens_eq isEnding gap valid longest woven status
  obtain rfl | ⟨inner, rfl, _⟩ := isEnding
  · exact ⟨lead, pieces, gap, valid, longest, woven⟩
  · refine absurd rfl (closed ⟨.openComment, "/*", (Text.lines source.toList).length⟩ ?_)
    rw [scanned]
    exact List.mem_append_right _ (List.mem_cons_self ..)

/-- Behind a newline the tokens of a source are those of the text there by itself, further down by
the newlines before it. -/
theorem tokens_newline {first second : String} (status earlier later : Status)
    (closed : ∀ token ∈ (tokens first earlier).1, token.kind ≠ .openComment) (nonempty : second ≠ "") :
    ∃ front last, (tokens first earlier).1 = front ++ [last] ∧ last.kind = .endOfFile ∧
      (tokens (first ++ "\n" ++ second) status).1 =
        front ++ (tokens second later).1.map (Token.lower (1 + first.toList.count '\n')) := by
  obtain ⟨lead, pieces, gap, valid, longest, woven⟩ := exists_pieces closed
  have more : second.toList ≠ [] := fun empty => nonempty (String.toList_inj.mp empty)
  have shape : (first ++ "\n" ++ second).toList = lead ++ weave ('\n' :: second.toList) pieces := by
    have spread := weave_append [] ('\n' :: second.toList) pieces
    rw [List.nil_append] at spread
    simp [woven, spread]
  have start : ofSource (first ++ "\n" ++ second).toList =
      ⟨lead ++ weave ('\n' :: second.toList) pieces, 1⟩ := by
    rw [← shape]
    simp [ofSource]
  have startSecond : ofSource second.toList = ⟨second.toList, 1⟩ := by simp [ofSource, more]
  obtain ⟨front, last, read, isLast, split⟩ := drain_newline valid longest gap more 1 status []
  have whole : (tokens (first ++ "\n" ++ second) status).1 =
      front ++ (tokens second later).1.map (Token.lower (1 + first.toList.count '\n')) := by
    rw [tokens, session, start, split, ← woven, drain_add _ _ _ _ later _ [], Nat.add_comm 1,
      tokens, session, startSecond]
  have scanned := tokens_eq_read (.inl rfl) gap valid longest woven earlier
  by_cases empty : first.toList = []
  · -- An empty source has no first line, so its end of file is on a line of its own.
    have none : pieces = [] := by
      cases pieces with
      | nil => rfl
      | cons piece later =>
        rw [empty] at woven
        simp [weave, (valid piece (List.mem_cons_self ..)).lexeme.ne_nil] at woven
    subst none
    obtain rfl : front = [] := by
      have one := congrArg List.length read
      simpa [Piece.read, closing] using one.symm
    exact ⟨[], _, scanned, rfl, whole⟩
  · have started : first.toList.isEmpty = false := by simpa using empty
    rw [started] at scanned
    exact ⟨front, last, scanned.trans read, isLast, whole⟩

/-- A scan can be split at a newline that is in no comment: the tokens are those of the text before
it, less their end of file, and then those of the text behind it, further down by the newlines
before it. The error flag is up afterwards if it was up before or is up after one of the parts. -/
theorem tokens_split (first second : String) (status earlier later : Status)
    (closed : ∀ token ∈ (tokens first earlier).1, token.kind ≠ .openComment) (nonempty : second ≠ "") :
    let whole := tokens (first ++ "\n" ++ second) status
    let lines := 1 + first.toList.count '\n'
    ∃ front last, (tokens first earlier).1 = front ++ [last] ∧ last.kind = .endOfFile ∧
      whole.1 = front ++ (tokens second later).1.map (Token.lower lines) ∧
      whole.2.status.flagged = (status.flagged ||
        (tokens first {}).2.status.flagged ||
        (tokens second {}).2.status.flagged) := by
  intro whole lines
  obtain ⟨front, last, before, isLast, split⟩ := tokens_newline status earlier later closed nonempty
  refine ⟨front, last, before, isLast, split, ?_⟩
  have same (source : String) (status later : Status) :
      (tokens source status).1 = (tokens source later).1 := drain_status _ _ _ _ _
  have harmless : last.kind.isFault = false := by rw [isLast]; rfl
  rw [flagged_tokens, flagged_tokens, flagged_tokens, same first _ earlier, same second _ later,
    show (tokens _ status).1 = _ from split, before]
  simp only [List.any_append, any_isFault_lower, List.any_cons, List.any_nil, harmless,
    Bool.false_or, Bool.or_false, Bool.or_assoc]

theorem tokens_split_open_comment :
    let first := "x /* \n */ !"
    let second := "= /*"
    let status : Status := ⟨7, false⟩
    let whole := tokens (first ++ "\n" ++ second) status
    let lines := 1 + first.toList.count '\n'
    (∀ token ∈ (tokens first {}).1, token.kind ≠ .openComment) ∧ second ≠ "" ∧
      ∃ front last, (tokens first {}).1 = front ++ [last] ∧ last.kind = .endOfFile ∧
        whole.1 = front ++ (tokens second {}).1.map (Token.lower lines) ∧
        whole.2.status.flagged = (status.flagged || (tokens first {}).2.status.flagged ||
          (tokens second {}).2.status.flagged) := by
  intro first second status whole lines
  have closed : ∀ token ∈ (tokens first {}).1, token.kind ≠ .openComment := by decide +kernel
  have nonempty : second ≠ "" := by decide
  exact ⟨closed, nonempty, tokens_split first second status {} {} closed nonempty⟩

/-- The last newline before the end of a source leads to no line, but it does before more text. -/
example : (tokens "x\n" {}).1.map Token.line = [1, 1] ∧
    (tokens "x\n\ny" {}).1.map Token.line = [1, 3, 3] := by decide +kernel

end Lexer

end FrontEnd
