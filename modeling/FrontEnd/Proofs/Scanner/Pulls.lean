import FrontEnd.Proofs.Scanner.Simulation

/-! # Pulling a number of tokens

Tokens that are pulled one after another are pulled in a row: pulls can be split at any point, and
sessions that cannot be told apart yield the same tokens on the same statuses.
-/

namespace FrontEnd.Session

variable {σ τ : Type}

/-- To pull some tokens and then more is to pull all of them. -/
theorem pulls_add [Scanner σ] (count more : Nat) (session : Session σ) :
    session.pulls (count + more) =
      ((session.pulls count).1 ++ ((session.pulls count).2.pulls more).1,
        ((session.pulls count).2.pulls more).2) := by
  induction count generalizing session with
  | zero => rw [Nat.zero_add]; rfl
  | succ count ih =>
    rw [Nat.succ_add]
    simp only [pulls, ih, List.cons_append]

theorem pulls_succ [Scanner σ] (count : Nat) (session : Session σ) :
    (session.pulls (count + 1)).2 = (session.pulls count).2.pull.2 := by
  rw [pulls_add]
  rfl

/-- Related sessions yield the same tokens, on the same statuses. -/
theorem Simulation.pulls [Scanner σ] [Scanner τ] {Related : Session σ → Session τ → Prop}
    (simulation : Simulation Related) (count : Nat) {left : Session σ} {right : Session τ}
    (related : Related left right) :
    (left.pulls count).1 = (right.pulls count).1 ∧
      Related (left.pulls count).2 (right.pulls count).2 := by
  induction count generalizing left right with
  | zero => exact ⟨rfl, related⟩
  | succ count ih =>
    have pulled := simulation.pull related
    obtain ⟨later, last⟩ := ih pulled
    refine ⟨?_, last⟩
    simp only [Session.pulls, simulation.token related, simulation.status pulled, later]

end FrontEnd.Session
