import FrontEnd.Proofs.Compilation.Proper
import FrontEnd.Proofs.Script.Uniform

/-! # Scripted stages are proper

Whatever a script asks of a parser or an analyzer, it does nothing with what it is handed but use
it.
-/

namespace FrontEnd.Script

open Session

variable {σ : Type}

/-- A step on a forest moves the status or raises the flag, if it touches them at all. -/
theorem step_used [Scanner σ] (scanner : σ) (bench : Workbench) (step : ForestStep) :
    let later := (bench.step step).2
    ∃ uses, (⟨scanner, later.status, later.journal⟩ : Session σ) =
      useAll ⟨scanner, bench.status, bench.journal⟩ uses := by
  cases step with
  | moveTo line => exact ⟨[.moveTo line], rfl⟩
  | flag => exact ⟨[.flag], rfl⟩
  | makeRoot | attachChild | attachNext | append =>
    refine ⟨[], ?_⟩
    simp only [Workbench.step, Workbench.settle]
    split <;> rfl
  | chain start =>
    refine ⟨[], ?_⟩
    cases start with
    | none => rfl
    | some id =>
      cases found : bench.forest.node? id <;>
        simp [Workbench.step, Workbench.withNode, found, useAll]
  | setPayload id | setValueType id | outlineFrom id | child id | inspect id =>
    refine ⟨[], ?_⟩
    cases found : bench.forest.node? id <;> simp [Workbench.step, Workbench.withNode, found, useAll]
  | make | outline | inspectAll => exact ⟨[], rfl⟩

theorem parseSteps_used [FiniteScanner σ] (session : Session σ) (forest : Forest)
    (steps : List ParserStep) :
    ∃ uses, (parseSteps session forest steps).session = session.useAll uses := by
  induction steps generalizing session forest with
  | nil => exact ⟨[], rfl⟩
  | cons step rest ih =>
    cases step with
    | fail => exact ⟨[], rfl⟩
    | pull =>
      obtain ⟨uses, used⟩ := ih session.pull.2 forest
      exact ⟨.pull :: uses, used⟩
    | drain =>
      obtain ⟨drain, drained⟩ := session.drain_used
      obtain ⟨uses, used⟩ := ih session.drain.2 forest
      refine ⟨drain ++ uses, ?_⟩
      rw [useAll_append, ← drained]
      exact used
    | forest step =>
      let bench : Workbench := ⟨forest, session.status, session.journal⟩
      let later := (bench.step step).2
      obtain ⟨first, stepped⟩ := step_used session.scanner bench step
      obtain ⟨uses, used⟩ := ih ⟨session.scanner, later.status, later.journal⟩ later.forest
      refine ⟨first ++ uses, ?_⟩
      rw [useAll_append]
      change _ = (useAll ⟨session.scanner, bench.status, bench.journal⟩ first).useAll uses
      rw [← stepped]
      exact used

theorem declareAll_used [FiniteScanner σ] (session : Session σ) (forest : Forest) :
    ∃ uses, (declareAll session forest).1 = session.useAll uses := by
  induction session using drain_induction generalizing forest with
  | last session last =>
    refine ⟨[.pull], ?_⟩
    rw [declareAll_last forest last]
    rfl
  | more session more ih =>
    rw [declareAll_more forest more]
    obtain ⟨uses, used⟩ := ih _
    exact ⟨.pull :: uses, used⟩

theorem ParserScript.proper (script : ParserScript) : script.parser.Proper := by
  cases script with
  | declaring => exact fun session => declareAll_used session .empty
  | steps steps => exact fun session => parseSteps_used session .empty steps

/-- Work that reads nothing at the desk is proper. -/
theorem proper_of_blind {α : Type} {work : EStateM Fault Desk α} (blind : Run.Blind work) :
    Desk.Proper work := by
  induction blind with
  | pure value => exact fun desk => ⟨[], rfl⟩
  | throw fault => exact fun desk => ⟨[], rfl⟩
  | write text =>
    intro desk
    refine ⟨[.write text], ?_⟩
    simp only [Desk.after, Desk.write]
    cases desk.listing.fits text <;> rfl
  | flag => exact fun desk => ⟨[.flag], rfl⟩
  | bind _ _ first later => exact first.bind later

theorem StageScripts.proper (scripts : StageScripts) : scripts.stages.Proper where
  parser parser present := by
    obtain ⟨script, -, rfl⟩ := Option.map_eq_some_iff.mp present
    exact script.proper
  analyzer analyzer present := by
    have blind := scripts.blind_of_mem analyzer present
    exact ⟨fun forest => proper_of_blind (blind.symbols forest),
      fun forest => proper_of_blind (blind.types forest)⟩

end FrontEnd.Script
