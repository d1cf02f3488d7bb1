import FrontEnd.Status
import FrontEnd.Token.Basic

/-! # Scanners

A scanner hands out tokens one at a time, and moves the shared status to the line of each. A
finite scanner reaches the end of its source. A session is a scanner in use: it holds the status
and collects the journal, which the scanner itself can neither read nor change.
-/

namespace FrontEnd

/-- What one pull on a scanner yields. -/
structure Pull (σ : Type) where
  token : Token
  scanner : σ
  status : Status
  entries : List Journal.Entry

/-- A source of tokens with states `σ`. -/
class Scanner (σ : Type) where
  /-- The next token; past the end of the source it is an end of file again. -/
  next : σ → Status → Pull σ

/-- A scanner that comes to the end of its source. -/
class FiniteScanner (σ : Type) extends Scanner σ where
  /-- A bound on the tokens before the end. -/
  remaining : σ → Nat
  remaining_next (scanner : σ) (status : Status) :
    (next scanner status).token.kind ≠ .endOfFile →
      remaining (next scanner status).scanner < remaining scanner

/-- A scanner in use. -/
structure Session (σ : Type) where
  scanner : σ
  status : Status
  journal : List Journal.Entry

namespace Session

variable {σ : Type}

def moveTo (session : Session σ) (line : Nat) : Session σ :=
  { session with status := session.status.moveTo line }

def flag (session : Session σ) : Session σ :=
  { session with
    status := session.status.flag
    journal := session.journal ++ session.status.flagEntries }

def pull [Scanner σ] (session : Session σ) : Token × Session σ :=
  let pulled := Scanner.next session.scanner session.status
  (pulled.token, ⟨pulled.scanner, pulled.status, session.journal ++ pulled.entries⟩)

/-- Take a number of tokens, each with the status after it. -/
def pulls [Scanner σ] : Nat → Session σ → List (Token × Status) × Session σ
  | 0, session => ([], session)
  | count + 1, session =>
    let pulled := session.pull
    let later := pulls count pulled.2
    ((pulled.1, pulled.2.status) :: later.1, later.2)

/-- Take tokens through the first end of file. -/
def drain [FiniteScanner σ] (session : Session σ) : List Token × Session σ :=
  let pulled := session.pull
  if pulled.1.kind = .endOfFile then ([pulled.1], pulled.2)
  else
    let later := drain pulled.2
    (pulled.1 :: later.1, later.2)
termination_by FiniteScanner.remaining session.scanner
decreasing_by exact FiniteScanner.remaining_next _ _ ‹_›

end FrontEnd.Session
