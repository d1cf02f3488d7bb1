import FrontEnd.Proofs.Scanner.Drain
import FrontEnd.Proofs.Scanner.Unlisted

/-! # The use of a session

Whoever is handed a session can take tokens, move the status to a line and raise the error flag, and
can do so as often as there is reason to. None of this lowers the flag. Over a lexer the flag is up
afterwards if it was up before, if it was raised, or if a fault is among the tokens that were taken.
-/

namespace FrontEnd.Session

variable {σ : Type}

/-- What can be done with a session. -/
inductive Use where
  | pull
  | moveTo (line : Nat)
  | flag
deriving DecidableEq, Repr

def use [Scanner σ] (session : Session σ) : Use → Session σ
  | .pull => session.pull.2
  | .moveTo line => session.moveTo line
  | .flag => session.flag

def useAll [Scanner σ] (session : Session σ) : List Use → Session σ
  | [] => session
  | first :: rest => (session.use first).useAll rest

def taken [Scanner σ] (session : Session σ) : List Use → List Token
  | [] => []
  | .pull :: rest => session.pull.1 :: session.pull.2.taken rest
  | .moveTo line :: rest => (session.moveTo line).taken rest
  | .flag :: rest => session.flag.taken rest

theorem useAll_append [Scanner σ] (session : Session σ) (uses more : List Use) :
    session.useAll (uses ++ more) = (session.useAll uses).useAll more := by
  induction uses generalizing session with
  | nil => rfl
  | cons first rest ih => exact ih (session.use first)

/-- To drain a session is to use it. -/
theorem drain_used [FiniteScanner σ] (session : Session σ) :
    ∃ uses, session.drain.2 = session.useAll uses := by
  induction session using drain_induction with
  | last session last =>
    refine ⟨[.pull], ?_⟩
    rw [drain_last last]
    rfl
  | more session more ih =>
    obtain ⟨uses, drained⟩ := ih
    refine ⟨.pull :: uses, ?_⟩
    rw [drain_more more]
    exact drained

variable {session : Session (Transcriber Lexer)}

/-- No use of a session stops its transcript. -/
theorem free_use (free : session.scanner.Free) (step : Use) : (session.use step).scanner.Free := by
  cases step with
  | pull => exact (pull_free free).2.2.2.2
  | moveTo line => exact free
  | flag => exact free

theorem free_useAll (free : session.scanner.Free) (uses : List Use) :
    (session.useAll uses).scanner.Free := by
  induction uses generalizing session with
  | nil => exact free
  | cons first rest ih => exact ih (free_use free first)

/-- A transcript does not keep the lexer behind it from flagging faults. -/
theorem flagged_pull_of_free (free : session.scanner.Free) :
    session.pull.2.status.flagged = (session.status.flagged || session.pull.1.kind.isFault) := by
  obtain ⟨token, -, status, -, -⟩ := pull_free free
  rw [token, status]
  exact Lexer.flagged_pull _

/-- The flag is up after the use of a session for one of three reasons. -/
theorem flagged_useAll_iff (free : session.scanner.Free) (uses : List Use) :
    (session.useAll uses).status.flagged = true ↔
      session.status.flagged = true ∨ .flag ∈ uses ∨
        ∃ token ∈ session.taken uses, token.kind.isFault = true := by
  induction uses generalizing session with
  | nil => simp [useAll, taken]
  | cons first rest ih =>
    rw [useAll, ih (free_use free first)]
    cases first with
    | pull =>
      simp only [use, taken, flagged_pull_of_free free, Bool.or_eq_true, List.mem_cons,
        reduceCtorEq, false_or, exists_eq_or_imp]
      grind
    | moveTo line => simp [use, taken, moveTo, Status.moveTo]
    | flag => simp [use, flag, Status.flag]

end FrontEnd.Session
