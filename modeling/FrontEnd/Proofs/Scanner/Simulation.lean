import FrontEnd.Compilation.Stage
import FrontEnd.Proofs.Scanner.Drain

/-! # Sessions that cannot be told apart

A relation between sessions is a simulation if related sessions show the same status, hand out the
same tokens, and stay related under pulls and under changes of the status and the journal. A
parser is uniform if nothing but that reaches it: over related sessions it has the same result and
the same reports, and it leaves related sessions behind.
-/

namespace FrontEnd

namespace Session

variable {σ τ : Type}

/-- A session whose user has set the status and added to the journal. -/
def amend (session : Session σ) (status : Status) (entries : List Journal.Entry) : Session σ :=
  ⟨session.scanner, status, session.journal ++ entries⟩

/-- A relation that no use of the sessions leads out of. -/
structure Simulation [Scanner σ] [Scanner τ] (Related : Session σ → Session τ → Prop) : Prop where
  status {left right} : Related left right → left.status = right.status
  token {left right} : Related left right → left.pull.1 = right.pull.1
  pull {left right} : Related left right → Related left.pull.2 right.pull.2
  amend {left right} (status : Status) (entries : List Journal.Entry) : Related left right →
    Related (left.amend status entries) (right.amend status entries)

/-- Related sessions are drained of the same tokens. -/
theorem Simulation.drain [FiniteScanner σ] [FiniteScanner τ]
    {Related : Session σ → Session τ → Prop} (simulation : Simulation Related)
    {left : Session σ} {right : Session τ} (related : Related left right) :
    left.drain.1 = right.drain.1 ∧ Related left.drain.2 right.drain.2 := by
  induction left using drain_induction generalizing right with
  | last left last =>
    have same := simulation.token related
    have last' : right.pull.1.kind = .endOfFile := same ▸ last
    rw [drain_last last, drain_last last', same]
    exact ⟨rfl, simulation.pull related⟩
  | more left more ih =>
    have same := simulation.token related
    have more' : right.pull.1.kind ≠ .endOfFile := same ▸ more
    obtain ⟨tokens, later⟩ := ih (simulation.pull related)
    rw [drain_more more, drain_more more', same]
    exact ⟨congrArg (right.pull.1 :: ·) tokens, later⟩

end Session

variable {ρ σ τ : Type}

/-- Two pieces of work of a parser that differ in nothing but related sessions. -/
structure Parsed.Alike (Related : Session σ → Session τ → Prop)
    (left : Parsed ρ σ) (right : Parsed ρ τ) : Prop where
  session : Related left.session right.session
  result : left.result = right.result
  reports : left.reports = right.reports

/-- A parser that cannot tell related sessions apart. -/
structure Parser.Uniform (parser : Parser ρ) : Prop where
  alike {σ τ : Type} [FiniteScanner σ] [FiniteScanner τ]
    {Related : Session σ → Session τ → Prop} {left : Session σ} {right : Session τ}
    (simulation : Session.Simulation Related) (related : Related left right) :
    Parsed.Alike Related (parser.parse left) (parser.parse right)

end FrontEnd
