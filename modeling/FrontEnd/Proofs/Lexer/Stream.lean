import FrontEnd.Proofs.Lexer.Line

/-! # Tokens without end

A lexer can be asked for more tokens than its source has. It then yields the tokens of the source
and after them the end of the file again and again, whatever the status it is asked on. So the lines of
the tokens never decrease, and the end of the file is always on the last line.
-/

namespace FrontEnd.Lexer

open Piece

/-- The tokens that a lexer yields when it is asked for a number of them. -/
def ahead : Nat → Lexer → List Token
  | 0, _ => []
  | count + 1, lexer => lexer.step.1 :: ahead count lexer.step.2

/-- A lexer that has come to its end stays there. -/
theorem step_again {lexer : Lexer} (last : lexer.step.1.kind = .endOfFile) :
    lexer.step.2.step = lexer.step := by
  obtain ⟨rest, line⟩ := lexer
  obtain ⟨lead, pieces, ending, gap, valid, longest, isEnding, rfl⟩ := exists_weave rest
  cases pieces with
  | cons piece later =>
    have first := valid piece (List.mem_cons_self ..)
    rw [step_piece gap first longest] at last
    exact absurd last first.lexeme.kind_ne.1
  | nil =>
    obtain rfl | ⟨inner, rfl, unclosed⟩ := isEnding
    · rw [weave, List.append_nil, step_end gap, step_end .empty]
      rfl
    · rw [weave, step_unclosed gap unclosed] at last
      cases last

theorem ahead_of_last {lexer : Lexer} (last : lexer.step.1.kind = .endOfFile) (count : Nat) :
    lexer.ahead count = List.replicate count lexer.step.1 := by
  induction count generalizing lexer with
  | zero => rfl
  | succ count ih =>
    have again := step_again last
    rw [ahead, ih (by rw [again]; exact last), again, List.replicate_succ]

/-- The tokens that a lexer is drained of are the first that it yields, and the last of them is the
one that it yields from then on. -/
theorem ahead_eq (session : Session Lexer) :
    ∃ last, session.drain.1.getLast? = some last ∧ last.kind = .endOfFile ∧ ∀ count,
      session.scanner.ahead count = (session.drain.1 ++ List.replicate count last).take count := by
  induction session using Session.drain_induction with
  | last session last =>
    rw [Session.drain_last last]
    refine ⟨session.pull.1, rfl, last, fun count => ?_⟩
    rw [ahead_of_last last, List.singleton_append, ← List.replicate_succ, List.take_replicate,
      Nat.min_eq_left (Nat.le_succ count)]
    rfl
  | more session more ih =>
    obtain ⟨last, ends, isLast, later⟩ := ih
    rw [Session.drain_more more]
    refine ⟨last, by rw [List.getLast?_cons, ends]; rfl, isLast, fun count => ?_⟩
    cases count with
    | zero => rfl
    | succ count =>
      have enough : List.take count (session.pull.2.drain.1 ++ List.replicate (count + 1) last) =
          session.pull.2.scanner.ahead count := by
        rw [later, List.take_append, List.take_append, List.take_replicate, List.take_replicate]
        congr 2
        omega
      rw [List.cons_append, List.take_succ_cons, enough]
      rfl

/-- Among the tokens of a source only the last one is the end of the file, so that is on the last
line. -/
theorem line_of_ended (source : String) (status : Status) :
    ∀ token ∈ (tokens source status).1, token.kind = .endOfFile →
      token.line = (Text.lines source.toList).length := by
  obtain ⟨lead, pieces, ending, gap, valid, longest, isEnding, woven⟩ := exists_weave source.toList
  rw [tokens_eq isEnding gap valid longest woven]
  intro token member isLast
  obtain front | back := List.mem_append.mp member
  · obtain ⟨index, bound, rfl⟩ := List.mem_mapIdx.mp front
    exact absurd isLast (valid _ (List.getElem_mem bound)).lexeme.kind_ne.1
  · exact line_of_mem_closing token back

/-- The tokens that a source yields are on lines that never decrease, none is beyond the last line, and
the end of the file is on that one. -/
theorem lines_ahead (source : String) (count : Nat) :
    let yielded := (ofSource source.toList).ahead count
    let total := (Text.lines source.toList).length
    yielded.Pairwise (fun earlier later => earlier.line ≤ later.line) ∧
      ∀ token ∈ yielded, token.line ≤ total ∧ (token.kind = .endOfFile → token.line = total) := by
  intro yielded total
  let drained := (tokens source {}).1
  obtain ⟨lead, pieces, ending, gap, valid, longest, isEnding, woven⟩ := exists_weave source.toList
  have sorted : drained.Pairwise fun earlier later => earlier.line ≤ later.line := by
    rw [show drained = _ from tokens_eq_read isEnding gap valid longest woven {}]
    exact (read_sorted lead _ pieces).2
  obtain ⟨last, ends, isLast, ahead⟩ := ahead_eq (session source {})
  have atEnd : last.line = total := line_of_ended source {} last (List.mem_of_getLast? ends) isLast
  obtain ⟨front, drained_eq⟩ : ∃ front, drained = front ++ [last] :=
    List.getLast?_eq_some_iff.mp ends
  have below : ∀ token ∈ drained, token.line ≤ total := by
    rw [drained_eq] at sorted ⊢
    intro token member
    obtain earlier | final := List.mem_append.mp member
    · exact atEnd ▸ (List.pairwise_append.mp sorted).2.2 token earlier last (List.mem_singleton_self _)
    · rw [List.mem_singleton.mp final, atEnd]
  -- What is yielded behind the tokens of the source is their last one.
  have inside : ∀ token ∈ drained ++ List.replicate count last, token ∈ drained := by
    intro token member
    obtain within | again := List.mem_append.mp member
    · exact within
    · rw [List.eq_of_mem_replicate again]
      exact List.mem_of_getLast? ends
  have whole : (drained ++ List.replicate count last).Pairwise
      fun earlier later => earlier.line ≤ later.line := by
    refine List.pairwise_append.mpr ⟨sorted, List.pairwise_replicate_of_refl, ?_⟩
    intro token member other again
    rw [List.eq_of_mem_replicate again, atEnd]
    exact below token member
  have yielded_eq : yielded = (drained ++ List.replicate count last).take count := ahead count
  rw [yielded_eq]
  refine ⟨whole.sublist (List.take_sublist ..), fun token member => ?_⟩
  have listed := inside token (List.mem_of_mem_take member)
  exact ⟨below token listed, line_of_ended source {} token listed⟩

/-- Who asks for as many tokens as a source has comes to the end of the file. -/
theorem ended_ahead {source : String} {status : Status} {count : Nat}
    (enough : (tokens source status).1.length ≤ count) :
    ∃ token ∈ (ofSource source.toList).ahead count, token.kind = .endOfFile := by
  obtain ⟨last, ends, isLast, ahead⟩ := ahead_eq (session source status)
  have yielded : (ofSource source.toList).ahead count =
      ((tokens source status).1 ++ List.replicate count last).take count := ahead count
  refine ⟨last, ?_, isLast⟩
  rw [yielded, List.take_append, List.take_of_length_le enough]
  exact List.mem_append_left _ (List.mem_of_getLast? ends)

end FrontEnd.Lexer
