import FrontEnd.Proofs.Lexer.Stream
import FrontEnd.Proofs.Scanner.Rows

/-! # Traces

What a transcript writes is the trace of the tokens that are taken through it: the rows of the lines
they let out and, if tokens are wanted, their own. The trace of some tokens and then more begins with
the trace of the first. Once the end of the file is reached no line is left, so from then on every
token brings its own row at most.
-/

namespace FrontEnd

namespace Transcriber

/-- Whether a row is shown. The rows of tokens are shown only if they are wanted. -/
def Row.isShown (wanted : Bool) : Row → Bool
  | echoed _ => true
  | scanned _ => wanted

/-- The text that tokens bring into a listing while lines are still to be echoed. -/
def trace (wanted : Bool) (pending : List (Nat × String)) (shown : List Token) : String :=
  Row.join ((rows pending shown).filter (Row.isShown wanted))

variable (wanted : Bool) (pending : List (Nat × String))

/-- If tokens are wanted, all rows are shown. -/
theorem filter_isShown_true (rows : List Row) : rows.filter (Row.isShown true) = rows := by
  rw [List.filter_eq_self]
  intro row _
  cases row <;> rfl

theorem trace_true (shown : List Token) :
    trace true pending shown = Row.join (rows pending shown) := by
  rw [trace, filter_isShown_true]

/-- Lines are shown in any case. -/
theorem filter_echoed (due : List (Nat × String)) :
    (due.map Row.echoed).filter (Row.isShown wanted) = due.map .echoed := by
  rw [List.filter_eq_self, List.forall_mem_map]
  exact fun _ _ => rfl

/-- A token brings the lines that are due, and its own row if that is wanted. -/
theorem trace_cons (token : Token) (rest : List Token) :
    trace wanted pending (token :: rest) =
      String.join ((pending.takeWhile (isDue token)).map echoRow) ++
        (if wanted then token.numberedRow else "") ++
          trace wanted (pending.dropWhile (isDue token)) rest := by
  have texts : Row.text ∘ Row.echoed = echoRow := funext Row.text_echoed
  rw [trace, rows, List.filter_append, filter_echoed, Row.join, List.map_append, List.map_map, texts,
    String.join_append, String.append_assoc]
  cases wanted with
  | false =>
    rw [List.filter_cons_of_neg Bool.false_ne_true]
    rfl
  | true =>
    rw [List.filter_cons_of_pos rfl, List.map_cons, String.join_cons, Row.text_scanned]
    rfl

/-- What is traced first stays, whatever comes behind it. -/
theorem trace_append (first second : List Token) :
    trace wanted pending (first ++ second) =
      trace wanted pending first ++ trace wanted (left pending first) second := by
  rw [trace, rows_append, List.filter_append, Row.join, List.map_append, String.join_append]
  rfl

/-- With no line left, a token brings its own row at most. -/
theorem trace_replicate (count : Nat) (token : Token) :
    trace wanted [] (List.replicate count token) =
      if wanted then String.join (List.replicate count token.numberedRow) else "" := by
  induction count with
  | zero => cases wanted <;> rfl
  | succ count ih =>
    rw [List.replicate_succ, trace_cons]
    simp only [List.takeWhile_nil, List.dropWhile_nil, List.map_nil, ih]
    cases wanted <;> simp [List.replicate_succ]

variable {wanted pending}

/-- The trace of the first tokens is how the trace of all of them begins. -/
theorem trace_take {count : Nat} {shown : List Token} (within : count ≤ shown.length)
    (more : List Token) :
    ∃ rest, trace wanted pending shown = trace wanted pending ((shown ++ more).take count) ++ rest := by
  rw [List.take_append_of_le_length within]
  nth_rewrite 1 [← List.take_append_drop count shown]
  exact ⟨_, trace_append wanted pending _ _⟩

/-- Behind the end of the file, each further token is one more row, if it is wanted at all. -/
theorem trace_past {count : Nat} {shown : List Token} (past : shown.length ≤ count)
    (ended : ∃ token ∈ shown, token.kind = .endOfFile) (last : Token) :
    trace wanted pending ((shown ++ List.replicate count last).take count) =
      trace wanted pending shown ++
        if wanted then String.join (List.replicate (count - shown.length) last.numberedRow)
        else "" := by
  have rest : (List.replicate count last).take (count - shown.length) =
      List.replicate (count - shown.length) last := by
    rw [List.take_replicate, Nat.min_eq_left (Nat.sub_le ..)]
  rw [List.take_append, List.take_of_length_le past, rest, trace_append, left_of_ended pending ended,
    trace_replicate]

variable {σ : Type}

/-- What a token brings into a listing is its trace. -/
theorem trace_recorded (transcriber : Transcriber σ) (token : Token) (rest : List Token) :
    trace transcriber.writesTokens transcriber.pending (token :: rest) =
      transcriber.rowsFor token ++
        trace (transcriber.recorded token).writesTokens (transcriber.recorded token).pending rest :=
  trace_cons _ _ token rest

end Transcriber

namespace Session

open Transcriber

variable {σ : Type}

/-- A pull through a free transcript writes what the token brings into the listing. -/
theorem scanner_pull_free [Scanner σ] {session : Session (Transcriber σ)}
    (free : session.scanner.Free) :
    ∃ inner, session.pull.2.scanner = { session.scanner.recorded session.pull.1 with inner } := by
  let pulled := Scanner.next session.scanner.inner session.status
  have advanced : (session.advance pulled).scanner.Free := ⟨free.sound, free.unlimited⟩
  refine ⟨pulled.scanner, ?_⟩
  rw [pull_transcriber]
  change ((session.advance pulled).scanner.record pulled.token).1 = _
  rw [advanced.record]
  rfl

/-- To drain a session is to pull as many tokens as it yields. -/
theorem drain_pulls [FiniteScanner σ] (session : Session σ) :
    (session.pulls session.drain.1.length).1.map Prod.fst = session.drain.1 ∧
      (session.pulls session.drain.1.length).2 = session.drain.2 := by
  induction session using drain_induction with
  | last session last =>
    rw [drain_last last]
    exact ⟨rfl, rfl⟩
  | more session more ih =>
    rw [drain_more more]
    exact ⟨congrArg (session.pull.1 :: ·) ih.1, ih.2⟩

/-- What is written while tokens are pulled through a free transcript is their trace. -/
theorem listing_pulls [Scanner σ] (count : Nat) {session : Session (Transcriber σ)}
    (free : session.scanner.Free) :
    let pulled := session.pulls count
    pulled.2.scanner.Free ∧ pulled.2.scanner.listing = session.scanner.listing.write
      (trace session.scanner.writesTokens session.scanner.pending (pulled.1.map Prod.fst)) := by
  induction count generalizing session with
  | zero => exact ⟨free, (Listing.write_nothing free.unlimited).symm⟩
  | succ count ih =>
    obtain ⟨inner, scanner⟩ := scanner_pull_free free
    have pulled : session.pull.2.scanner.Free := by
      rw [scanner]
      exact ⟨free.sound, free.unlimited⟩
    have later := ih pulled
    refine ⟨later.1, later.2.trans ?_⟩
    simp only [pulls, List.map_cons]
    rw [trace_recorded, ← Listing.write_write, scanner]
    rfl

end Session

namespace Lexer

/-- A lexer's session yields the tokens that the lexer yields. -/
theorem tokens_pulls (count : Nat) (session : Session Lexer) :
    (session.pulls count).1.map Prod.fst = session.scanner.ahead count := by
  induction count generalizing session with
  | zero => rfl
  | succ count ih => exact congrArg (session.pull.1 :: ·) (ih session.pull.2)

theorem ahead_drain (session : Session Lexer) :
    session.scanner.ahead session.drain.1.length = session.drain.1 := by
  rw [← tokens_pulls, session.drain_pulls.1]

/-- The end of the file moves the status to its line and does nothing else. -/
theorem observe_endOfFile {token : Token} (last : token.kind = .endOfFile) (status : Status) :
    observe token status = (status.moveTo token.line, []) := by
  have sound : token.kind.isFault = false := by
    rw [last]
    rfl
  simp [observe, sound]

/-- The end of the file can be taken again and again. -/
theorem pull_again {session : Session Lexer} (last : session.pull.1.kind = .endOfFile) :
    session.pull.2.pull = session.pull := by
  have again : session.scanner.step.2.step = session.scanner.step := step_again last
  have observed := observe_endOfFile (show session.scanner.step.1.kind = .endOfFile from last)
  simp only [Session.pull, Scanner.next, again, observed, List.append_nil]
  rfl

/-- A drained session is not changed by further pulls. -/
theorem pulls_drained (session : Session Lexer) (extra : Nat) :
    (session.drain.2.pulls extra).2 = session.drain.2 := by
  induction session using Session.drain_induction with
  | last session last =>
    rw [Session.drain_last last]
    have still := congrArg Prod.snd (pull_again last)
    induction extra with
    | zero => rfl
    | succ extra ih => rw [Session.pulls_succ, ih, still]
  | more session more ih =>
    rw [Session.drain_more more]
    exact ih

/-- Pulls beyond the end of the file leave a session drained. -/
theorem pulls_past {session : Session Lexer} {count : Nat} (past : session.drain.1.length ≤ count) :
    (session.pulls count).2 = session.drain.2 := by
  obtain ⟨extra, rfl⟩ := Nat.exists_eq_add_of_le past
  rw [Session.pulls_add, session.drain_pulls.2, pulls_drained]

end Lexer

end FrontEnd
