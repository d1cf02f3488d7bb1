import FrontEnd.Proofs.Scanner.Use

/-! # Proper stages

A stage is proper if it does nothing with what it is handed but use it: a parser takes tokens, an
analyzer writes into the listing, and either can move the status and raise the flag. What a stage
decides to do, and when, is its own affair.
-/

namespace FrontEnd

variable {ρ α β : Type}

namespace Desk

/-- What can be done at an analyzer's desk. -/
inductive Use where
  | write (text : String)
  | moveTo (line : Nat)
  | flag
deriving DecidableEq, Repr

def use (desk : Desk) : Use → Desk
  | .write text => { desk with listing := desk.listing.write text }
  | .moveTo line => { desk with status := desk.status.moveTo line }
  | .flag => { desk with
    status := desk.status.flag
    journal := desk.journal ++ desk.status.flagEntries }

def useAll (desk : Desk) (uses : List Use) : Desk :=
  uses.foldl use desk

/-- The desk that work leaves behind, whether or not it failed. -/
def after (work : EStateM Fault Desk α) (desk : Desk) : Desk :=
  match work desk with
  | .ok _ last => last
  | .error _ last => last

/-- Work that does nothing with a desk but use it. -/
def Proper (work : EStateM Fault Desk α) : Prop :=
  ∀ desk, ∃ uses, after work desk = desk.useAll uses

theorem Proper.bind {work : EStateM Fault Desk α} {later : α → EStateM Fault Desk β}
    (first : Proper work) (second : ∀ value, Proper (later value)) : Proper (work >>= later) := by
  intro desk
  obtain ⟨uses, left⟩ := first desk
  cases ran : work desk with
  | ok value middle =>
    obtain ⟨more, left'⟩ := second value middle
    refine ⟨uses ++ more, ?_⟩
    have done : after work desk = middle := by rw [after, ran]
    calc after (work >>= later) desk
        = after (later value) middle := by simp only [after, Bind.bind, EStateM.bind, ran]
      _ = (desk.useAll uses).useAll more := by rw [left', ← done, left]
      _ = desk.useAll (uses ++ more) := List.foldl_append.symm
  | error fault last =>
    refine ⟨uses, ?_⟩
    rw [← left]
    simp only [after, Bind.bind, EStateM.bind, ran]

theorem limit_useAll (desk : Desk) (uses : List Use) :
    (desk.useAll uses).listing.limit = desk.listing.limit := by
  induction uses generalizing desk with
  | nil => rfl
  | cons first rest ih =>
    refine (ih (desk.use first)).trans ?_
    cases first <;> rfl

/-- The flag stays up, and it goes up if it is raised. -/
theorem flagged_useAll (desk : Desk) (uses : List Use) :
    (desk.useAll uses).status.flagged = true ↔ desk.status.flagged = true ∨ .flag ∈ uses := by
  induction uses generalizing desk with
  | nil => simp [useAll]
  | cons first rest ih =>
    refine (ih (desk.use first)).trans ?_
    cases first <;> simp [use, Status.flag, Status.moveTo]

end Desk

/-- A parser that does nothing with a session but use it. -/
def Parser.Proper (parser : Parser ρ) : Prop :=
  ∀ {σ : Type} [FiniteScanner σ] (session : Session σ),
    ∃ uses, (parser.parse session).session = session.useAll uses

/-- An analyzer both of whose passes do nothing with their desk but use it. -/
structure Analyzer.Proper (analyzer : Analyzer) : Prop where
  symbols (forest : Forest) : Desk.Proper (analyzer.buildSymbols forest)
  types (forest : Forest) : Desk.Proper (analyzer.checkTypes forest)

/-- Stages that are proper as far as they are there. -/
structure Stages.Proper (stages : Stages ρ) : Prop where
  parser : ∀ parser ∈ stages.parser, parser.Proper
  analyzer : ∀ analyzer ∈ stages.analyzer, analyzer.Proper

end FrontEnd
