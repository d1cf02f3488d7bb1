import FrontEnd.Scanner.Basic

/-! # Replaying tokens

A list of tokens can stand in for a source. Its scanner hands the tokens out in order and then
ends on a line of its own, moving the status to the line of each and reporting nothing.
-/

namespace FrontEnd

/-- Tokens still to be handed out, and the line of the end behind them. -/
structure Replay where
  upcoming : List Token
  lastLine : Nat
deriving DecidableEq, Repr

namespace Replay

def step (replay : Replay) : Token × Replay :=
  match replay.upcoming with
  | [] => (⟨.endOfFile, "", replay.lastLine⟩, replay)
  | token :: rest => (token, { replay with upcoming := rest })

/-- Each token before the end of file is handed out once. -/
theorem length_step_lt (replay : Replay) (more : replay.step.1.kind ≠ .endOfFile) :
    replay.step.2.upcoming.length < replay.upcoming.length := by
  unfold step at more ⊢
  split
  · next exhausted => simp [exhausted] at more
  · next waiting => simp [waiting]

instance : FiniteScanner Replay where
  next replay status :=
    let stepped := replay.step
    ⟨stepped.1, stepped.2, status.moveTo stepped.1.line, []⟩
  remaining replay := replay.upcoming.length
  remaining_next replay _ more := length_step_lt replay more

end FrontEnd.Replay
