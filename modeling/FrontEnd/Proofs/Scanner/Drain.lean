import FrontEnd.Lexer.Basic

/-! # Draining a scanner

A drained scanner hands out its tokens up to the first end of file. For a lexer the error flag is up
afterwards if it was up before or a fault was among the tokens, and what was reported on the way is
for debugging.
-/

namespace FrontEnd

namespace Session

variable {σ : Type} [FiniteScanner σ]

/-- Induction along the tokens that a scanner is drained of. -/
@[elab_as_elim]
theorem drain_induction {motive : Session σ → Prop}
    (last : ∀ session, session.pull.1.kind = .endOfFile → motive session)
    (more : ∀ session, session.pull.1.kind ≠ .endOfFile → motive session.pull.2 → motive session)
    (session : Session σ) : motive session :=
  Session.drain.induct motive last more session

theorem drain_last {session : Session σ} (last : session.pull.1.kind = .endOfFile) :
    session.drain = ([session.pull.1], session.pull.2) := by
  rw [drain]
  exact if_pos last

theorem drain_more {session : Session σ} (more : session.pull.1.kind ≠ .endOfFile) :
    session.drain = (session.pull.1 :: session.pull.2.drain.1, session.pull.2.drain.2) := by
  rw [drain]
  exact if_neg more

/-- Taking tokens as long as none is the end of the file comes to an end, after a number of them and with
a session. -/
inductive Drains {σ : Type} [Scanner σ] : Session σ → Nat → Session σ → Prop
  | last {session : Session σ} (last : session.pull.1.kind = .endOfFile) :
      Drains session 1 session.pull.2
  | more {session left : Session σ} {count : Nat} (more : session.pull.1.kind ≠ .endOfFile)
      (later : Drains session.pull.2 count left) : Drains session (count + 1) left

theorem drains_drain (session : Session σ) : session.Drains session.drain.1.length session.drain.2 := by
  induction session using drain_induction with
  | last session last =>
    rw [drain_last last]
    exact .last last
  | more session more ih =>
    rw [drain_more more]
    exact .more more ih

theorem exists_endOfFile_drain (session : Session σ) :
    ∃ token ∈ session.drain.1, token.kind = .endOfFile := by
  induction session using drain_induction with
  | last session last =>
    rw [drain_last last]
    exact ⟨session.pull.1, List.mem_singleton_self _, last⟩
  | more session more ih =>
    obtain ⟨token, member, isLast⟩ := ih
    rw [drain_more more]
    exact ⟨token, List.mem_cons_of_mem _ member, isLast⟩

end Session

namespace Lexer

theorem line_observe (token : Token) (status : Status) : (observe token status).1.line = token.line := by
  unfold observe
  dsimp only
  split <;> rfl

theorem flagged_observe (token : Token) (status : Status) :
    (observe token status).1.flagged = (status.flagged || token.kind.isFault) := by
  unfold observe
  cases fault : token.kind.isFault <;> simp [Status.flag, Status.moveTo]

theorem flagged_pull (session : Session Lexer) :
    session.pull.2.status.flagged = (session.status.flagged || session.pull.1.kind.isFault) :=
  flagged_observe session.scanner.step.1 session.status

theorem flagged_drain (session : Session Lexer) :
    session.drain.2.status.flagged =
      (session.status.flagged || session.drain.1.any fun token => token.kind.isFault) := by
  induction session using Session.drain_induction with
  | last session last =>
    rw [Session.drain_last last]
    simp only [flagged_pull, List.any_cons, List.any_nil, Bool.or_false]
  | more session more ih =>
    rw [Session.drain_more more, List.any_cons, ← Bool.or_assoc, ← flagged_pull]
    exact ih

theorem level_observe (token : Token) (status : Status) :
    ∀ entry ∈ (observe token status).2, entry.level = .debug := by
  have raised (moved : Status) : ∀ entry ∈ moved.flagEntries, entry.level = .debug := by
    unfold Status.flagEntries
    split
    · nofun
    · exact List.forall_mem_singleton.mpr rfl
  unfold observe
  dsimp only
  split
  · exact List.forall_mem_cons.mpr ⟨rfl, raised _⟩
  · nofun

theorem level_pull (session : Session Lexer) :
    ∀ entry ∈ session.pull.2.journal, entry ∈ session.journal ∨ entry.level = .debug := by
  intro entry member
  exact (List.mem_append.mp member).imp_right (level_observe _ _ entry)

/-- While a lexer is drained, nothing is reported but for debugging. -/
theorem level_drain (session : Session Lexer) :
    ∀ entry ∈ session.drain.2.journal, entry ∈ session.journal ∨ entry.level = .debug := by
  induction session using Session.drain_induction with
  | last session last =>
    rw [Session.drain_last last]
    exact level_pull session
  | more session more ih =>
    rw [Session.drain_more more]
    intro entry member
    exact (ih entry member).elim (level_pull session entry) .inr

end Lexer

end FrontEnd
