import FrontEnd.Proofs.Lexer.Bounds
import FrontEnd.Proofs.Scanner.Trace
import FrontEnd.Proofs.Scanner.Use

/-! # Progress

Skipping moves on with every step, so it comes to a stop from anywhere, whether a comment is closed or
not. A token before the end of the file leads further into the source: a lexeme is not empty, and in
front of a comment that is never closed at least its opening pair is skipped. The end of the file
leaves the cursor at the end of the source, where nothing changes any more but the line of the status.
So a source has at most as many tokens as bytes, and the end of the file.
-/

namespace FrontEnd

namespace Cursor

open Lexer Text

variable {source : String} {cursor later : Cursor}

/-! ### Skipping -/

/-- Skipping step by step comes to a stop, in a number of steps. -/
inductive Skip.Ends (source : String) : Skip → Nat → Stop → Prop
  | now {skip : Skip} {stop : Stop} (stepped : skip.step source = .inr stop) : Ends source skip 1 stop
  | later {skip further : Skip} {stop : Stop} {count : Nat} (stepped : skip.step source = .inl further)
      (ends : Ends source further count stop) : Ends source skip (count + 1) stop

/-- From anywhere, in a comment or not, skipping comes to a stop. It takes one step more than there are
bytes ahead at most. -/
theorem Skip.ends_run (source : String) (skip : Skip) :
    ∃ count ≤ source.utf8ByteSize - skip.cursor.position + 1,
      skip.Ends source count (skip.run source) := by
  induction skip using Skip.run.induct source with
  | case1 skip further stepped ih =>
    -- The step begins inside of the source and leads further, so fewer bytes are ahead behind it.
    obtain ⟨count, bound, ends⟩ := ih
    obtain ⟨inside, moved⟩ := step_advances stepped
    rw [run_of_step stepped]
    exact ⟨count + 1, by omega, .later stepped ends⟩
  | case2 skip stop stepped =>
    rw [run_of_stop stepped]
    exact ⟨1, Nat.le_add_left .., .now stepped⟩

/-- Skipping stops where it is, and between lexemes it does not stop with an unclosed comment. -/
theorem Skip.step_stops {skip : Skip} {stop : Stop} (stepped : skip.step source = .inr stop) :
    stop.cursor = skip.cursor ∧ ∀ cursor, skip = .gap cursor → stop = .reached cursor := by
  revert stepped
  fun_cases Skip.step source skip with
  | case6 | case7 =>
    rintro ⟨⟩
    exact ⟨rfl, fun _ same => congrArg (Stop.reached ∘ Skip.cursor) same⟩
  | case8 =>
    rintro ⟨⟩
    refine ⟨rfl, fun _ same => ?_⟩
    cases same
  | _ => rintro ⟨⟩

/-- Every step but the last one leads further. -/
theorem Skip.Ends.further {skip : Skip} {count : Nat} {stop : Stop} (ends : skip.Ends source count stop) :
    0 < count ∧ skip.cursor.position + count ≤ stop.cursor.position + 1 := by
  induction ends with
  | now stepped =>
    rw [(step_stops stepped).1]
    exact ⟨Nat.one_pos, Nat.le_refl _⟩
  | later stepped _ ih =>
    have moved := (step_advances stepped).2
    exact ⟨Nat.succ_pos _, by omega⟩

theorem position_le_of_reached {here : Cursor} (stopped : (Skip.gap cursor).run source = .reached here) :
    cursor.position ≤ here.position := by
  obtain ⟨count, -, ends⟩ := Skip.ends_run source (.gap cursor)
  rw [stopped] at ends
  obtain ⟨positive, further⟩ := ends.further
  rw [Skip.cursor, Stop.cursor] at further
  omega

/-- In front of a comment that is never closed, something is skipped. -/
theorem position_lt_of_unclosed {start : Nat} {last : Cursor}
    (stopped : (Skip.gap cursor).run source = .unclosed start last) : cursor.position < last.position := by
  obtain ⟨count, -, ends⟩ := Skip.ends_run source (.gap cursor)
  rw [stopped] at ends
  obtain ⟨-, further⟩ := ends.further
  cases ends with
  | now stepped => cases (Skip.step_stops stepped).2 cursor rfl
  | later _ ends =>
    have positive := ends.further.1
    rw [Skip.cursor, Stop.cursor] at further
    omega

/-! ### Tokens -/

/-- A token before the end of the file leads further. -/
theorem Safe.position_lt {token : Token} (safe : cursor.Safe source)
    (taken : cursor.next source = some (token, later)) (more : token.kind ≠ .endOfFile) :
    cursor.position < later.position := by
  cases stopped : (Skip.gap cursor).run source with
  | unclosed start last =>
    cases taken.symm.trans (safe.marker stopped).2
    exact position_lt_of_unclosed stopped
  | reached here =>
    by_cases ended : here.atEnd source
    · cases taken.symm.trans (next_of_atEnd stopped ended)
      exact absurd rfl more
    · obtain ⟨kind, length, text, lexeme, next⟩ := safe.lexeme stopped ended
      cases taken.symm.trans next
      exact Nat.lt_of_le_of_lt (position_le_of_reached stopped) (Nat.lt_add_of_pos_right lexeme.positive)

/-- The end of the file leaves nothing of the text. -/
theorem rest_of_ended {lexer : Lexer} (last : lexer.step.1.kind = .endOfFile) : lexer.step.2.rest = [] := by
  unfold step at last ⊢
  split at last
  · cases last
  · rfl
  · exact absurd last (munch_kind_ne _ _)

/-- A lexer is at the place of one cursor only. -/
theorem Marks.unique {lexer : Lexer} (marks : cursor.Marks source lexer)
    (other : later.Marks source lexer) : cursor = later := by
  obtain ⟨read, split, rfl⟩ := marks.exists_behind
  obtain ⟨again, split', rfl⟩ := other.exists_behind
  rw [List.append_cancel_right (split.symm.trans split')]

theorem Marks.position_of_ended {lexer : Lexer} (marks : cursor.Marks source lexer)
    (ended : lexer.rest = []) : cursor.position = source.utf8ByteSize := by
  obtain ⟨-, read, split, position⟩ := marks
  rw [position, utf8ByteSize_ofList, utf8ByteSize_eq_width, split, ended, List.append_nil]

end Cursor

namespace Lexer

open Cursor Session

variable {source : String} {cursor : Cursor} {session : Session Lexer}

/-- A lexer that only yields the end of the file stays as it is, whatever is done with its session. -/
theorem scanner_useAll {token : Token} (still : session.scanner.step = (token, session.scanner))
    (uses : List Use) : (session.useAll uses).scanner = session.scanner := by
  induction uses generalizing session with
  | nil => rfl
  | cons first rest ih =>
    have kept : (session.use first).scanner = session.scanner := by
      cases first with
      | pull => exact congrArg Prod.snd still
      | moveTo | flag => rfl
    rw [useAll, ih (by rw [kept, still]), kept]

/-- From the end of the file on, whatever is done with a session, the lexer stays as it is and yields
the same token again, which moves the status to its line and does nothing else. -/
theorem useAll_ended (last : session.pull.1.kind = .endOfFile) (uses : List Use) :
    let left := session.pull.2.useAll uses
    left.scanner = session.pull.2.scanner ∧
      left.pull = (session.pull.1, left.moveTo session.pull.1.line) := by
  intro left
  have again : session.scanner.step.2.step = session.scanner.step := step_again last
  have still : session.pull.2.scanner.step = (session.pull.1, session.pull.2.scanner) := again
  have kept : left.scanner = session.pull.2.scanner := scanner_useAll still uses
  refine ⟨kept, ?_⟩
  rw [Session.pull, Session.moveTo]
  simp only [Scanner.next, kept, still, observe_endOfFile last, List.append_nil]

/-- Behind a cursor there are at most as many tokens as bytes, and the end of the file. -/
theorem length_drain_le (session : Session Lexer) (marks : cursor.Marks source session.scanner) :
    session.drain.1.length ≤ source.utf8ByteSize - cursor.position + 1 := by
  induction session using Session.drain_induction generalizing cursor with
  | last session last =>
    rw [Session.drain_last last]
    exact Nat.le_add_left ..
  | more session more ih =>
    -- The token leads further, and not beyond the source: fewer bytes are left for those behind it.
    obtain ⟨later, taken, marked⟩ := marks.next
    have further : cursor.position < later.position := marks.safe.position_lt taken more
    have inside := marked.safe.inside
    have bound := ih marked
    rw [Session.drain_more more, List.length_cons]
    omega

/-- What taking tokens comes to in a session whose lexer is at the place of a cursor. -/
structure Progress (source : String) (session : Session Lexer) (cursor later : Cursor) : Prop where
  marks : cursor.Marks source session.scanner
  next : cursor.next source = some (session.pull.1, later)
  following : later.Marks source session.pull.2.scanner
  /-- A token before the end of the file leads further. -/
  further : session.pull.1.kind ≠ .endOfFile → cursor.position < later.position
  /-- The end of the file leaves the cursor at the end of the source, and it stays there. -/
  atEnd : session.pull.1.kind = .endOfFile →
    later.position = source.utf8ByteSize ∧ later.next source = some (session.pull.1, later)
  /-- From the end of the file on, whatever is done with the session, the lexer stays as it is, and the
  same token is taken, which moves the status to its line and does nothing else. -/
  ended : session.pull.1.kind = .endOfFile → ∀ uses : List Use,
    let left := session.pull.2.useAll uses
    left.scanner = session.pull.2.scanner ∧
      left.pull = (session.pull.1, left.moveTo session.pull.1.line)
  /-- The end of the file is reached with at most one token for each byte that is left. -/
  drains : ∃ count ≤ source.utf8ByteSize - cursor.position + 1, session.Drains count session.drain.2

theorem progress (marks : cursor.Marks source session.scanner) :
    ∃ later, Progress source session cursor later := by
  obtain ⟨later, next, following⟩ := marks.next
  refine ⟨later, marks, next, following, marks.safe.position_lt next, fun last => ?_, useAll_ended,
    _, length_drain_le session marks, session.drains_drain⟩
  have still : session.scanner.step.2.step = (session.pull.1, session.pull.2.scanner) := step_again last
  obtain ⟨again, taken, marked⟩ := following.next
  rw [still] at taken marked
  refine ⟨following.position_of_ended (rest_of_ended last), ?_⟩
  rw [taken, marked.unique following]

/-- However a session is used, its lexer is at the place of a cursor. -/
theorem exists_marks (session : Session Lexer) (marks : cursor.Marks source session.scanner)
    (uses : List Use) :
    ∃ later : Cursor, later.Marks source (session.useAll uses).scanner := by
  induction uses generalizing cursor session with
  | nil => exact ⟨cursor, marks⟩
  | cons first rest ih =>
    cases first with
    | pull =>
      obtain ⟨later, -, marked⟩ := marks.next
      exact ih session.pull.2 marked
    | moveTo line => exact ih (session.moveTo line) marks
    | flag => exact ih session.flag marks

end Lexer

end FrontEnd
