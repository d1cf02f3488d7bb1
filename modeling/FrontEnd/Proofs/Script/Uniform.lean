import FrontEnd.Proofs.Compilation.Phases
import FrontEnd.Proofs.Scanner.Simulation
import FrontEnd.Script.Stages

/-! # Scripted parsers are uniform

A scripted parser uses a scanner by pulls only. The steps on its forest read the status and set
it, and they add to the journal without reading it. A scripted analyzer writes, flags and fails as
its script says, whatever is on its desk.
-/

namespace FrontEnd.Script

namespace Workbench

/-- A workbench with older entries in its journal. -/
def behind (journal : List Journal.Entry) (bench : Workbench) : Workbench :=
  { bench with journal := journal ++ bench.journal }

private theorem settle_behind (journal : List Journal.Entry) (bench : Workbench)
    (result : Except LinkError (Option NodeId × Forest)) :
    (bench.behind journal).settle result =
      ((bench.settle result).1, (bench.settle result).2.behind journal) := by
  cases result <;> rfl

private theorem flag_behind (journal : List Journal.Entry) (bench : Workbench) :
    (bench.behind journal).flag = bench.flag.behind journal := by
  simp only [flag, behind, List.append_assoc]

/-- A step adds to the journal, and what is in the journal decides nothing. -/
theorem step_behind (journal : List Journal.Entry) (bench : Workbench) (step : ForestStep) :
    (bench.behind journal).step step = ((bench.step step).1, (bench.step step).2.behind journal) := by
  cases step with
  | flag =>
    change (ForestAnswer.status (bench.behind journal).flag.status, (bench.behind journal).flag) = _
    rw [flag_behind]
    rfl
  | makeRoot | attachChild | attachNext | append => exact settle_behind journal bench _
  | chain start =>
    cases start with
    | none => rfl
    | some id => cases found : bench.forest.node? id <;> simp [Workbench.step, withNode, found, behind]
  | setPayload id | setValueType id | outlineFrom id | child id | inspect id =>
    cases found : bench.forest.node? id <;> simp [Workbench.step, withNode, found, behind]
  | moveTo | make | outline | inspectAll => rfl

end Workbench

variable {σ τ : Type}

/-- A step on the forest amends the session, whatever is in its journal. -/
theorem parseSteps_forest [FiniteScanner σ] (session : Session σ) (forest : Forest)
    (step : ForestStep) (rest : List ParserStep) :
    let stepped := Workbench.step ⟨forest, session.status, []⟩ step
    let later := parseSteps (session.amend stepped.2.status stepped.2.journal) stepped.2.forest rest
    parseSteps session forest (.forest step :: rest) =
      { later with reports := .forest stepped.1 :: later.reports } := by
  have behind := Workbench.step_behind session.journal ⟨forest, session.status, []⟩ step
  simp only [Workbench.behind, List.append_nil] at behind
  simp only [parseSteps, behind]
  rfl

theorem declareAll_last [FiniteScanner σ] {session : Session σ} (forest : Forest)
    (last : session.pull.1.kind = .endOfFile) :
    declareAll session forest = (session.pull.2, forest) := by
  rw [declareAll]
  exact if_pos last

/-- A token before the end makes a declaration if it is an identifier. -/
theorem declareAll_more [FiniteScanner σ] {session : Session σ} (forest : Forest)
    (more : session.pull.1.kind ≠ .endOfFile) :
    declareAll session forest =
      declareAll session.pull.2
        (if session.pull.1.kind = .identifier then
          (declare forest session.pull.1.lexeme session.pull.2.status.line).toOption.getD forest
        else forest) := by
  rw [declareAll, if_neg more]
  split <;> rfl

/-- Steps over related sessions are answered alike. -/
private theorem parseSteps_related [FiniteScanner σ] [FiniteScanner τ]
    {Related : Session σ → Session τ → Prop} (simulation : Session.Simulation Related)
    (steps : List ParserStep) {left : Session σ} {right : Session τ} (related : Related left right)
    (forest : Forest) :
    Parsed.Alike Related (parseSteps left forest steps) (parseSteps right forest steps) := by
  induction steps generalizing left right forest with
  | nil => exact ⟨related, rfl, rfl⟩
  | cons step rest ih =>
    have status := simulation.status related
    cases step with
    | fail => exact ⟨related, by simp only [parseSteps, status], rfl⟩
    | pull =>
      have later := ih (simulation.pull related) forest
      refine ⟨later.session, later.result, ?_⟩
      simp only [parseSteps, simulation.token related, later.reports]
    | drain =>
      obtain ⟨tokens, drained⟩ := simulation.drain related
      have later := ih drained forest
      refine ⟨later.session, later.result, ?_⟩
      simp only [parseSteps, tokens, simulation.status drained, later.reports]
    | forest step =>
      rw [parseSteps_forest, parseSteps_forest, status]
      generalize Workbench.step ⟨forest, right.status, []⟩ step = stepped
      have later := ih (simulation.amend stepped.2.status stepped.2.journal related) stepped.2.forest
      exact ⟨later.session, later.result, congrArg (.forest stepped.1 :: ·) later.reports⟩

theorem parser_uniform (steps : List ParserStep) : (parser steps).Uniform where
  alike simulation related := parseSteps_related simulation steps related .empty

/-- The declarations of related sessions are made alike. -/
private theorem declareAll_related [FiniteScanner σ] [FiniteScanner τ]
    {Related : Session σ → Session τ → Prop} (simulation : Session.Simulation Related)
    {left : Session σ} {right : Session τ} (related : Related left right) (forest : Forest) :
    Related (declareAll left forest).1 (declareAll right forest).1 ∧
      (declareAll left forest).2 = (declareAll right forest).2 := by
  induction left using Session.drain_induction generalizing right forest with
  | last left last =>
    have last' : right.pull.1.kind = .endOfFile := simulation.token related ▸ last
    rw [declareAll_last forest last, declareAll_last forest last']
    exact ⟨simulation.pull related, rfl⟩
  | more left more ih =>
    have same := simulation.token related
    have more' : right.pull.1.kind ≠ .endOfFile := same ▸ more
    have pulled := simulation.pull related
    rw [declareAll_more forest more, declareAll_more forest more', same, simulation.status pulled]
    exact ih pulled _

theorem declaringParser_uniform (ρ : Type) : (declaringParser ρ).Uniform where
  alike simulation related := by
    obtain ⟨session, forest⟩ := declareAll_related simulation related .empty
    exact ⟨session, congrArg Except.ok forest, rfl⟩

/-- What a parser does that a script asks for. -/
inductive ParserScript where
  | declaring
  | steps (steps : List ParserStep)
deriving DecidableEq, Repr

def ParserScript.parser : ParserScript → Parser ParserAnswer
  | declaring => declaringParser ParserAnswer
  | steps script => Script.parser script

theorem ParserScript.uniform (script : ParserScript) : script.parser.Uniform := by
  cases script with
  | declaring => exact declaringParser_uniform ParserAnswer
  | steps script => exact parser_uniform script

namespace AnalyzerScript

open Run

theorem blind_close (script : AnalyzerScript) (pass : Pass) : Blind (script.close pass) := by
  have failing : Blind (if script.fails = some pass then throw pass.fault else pure ()) := by
    split
    · exact .throw pass.fault
    · exact .pure ()
  unfold close
  dsimp only
  split
  · exact .bind .flag fun _ => failing
  · exact failing

theorem blind (script : AnalyzerScript) : BlindAnalyzer script.analyzer where
  symbols _ := .bind (.write _) fun _ => script.blind_close .symbols
  types forest := by
    have closing : Blind (do
        script.close .types
        pure (forest.setValueTypes .integer)) := .bind (script.blind_close .types) fun _ => .pure _
    simp only [analyzer]
    cases script.text with
    | none => exact closing
    | some text => exact .bind (.write text) fun _ => closing

end AnalyzerScript

/-- The stages that scripts ask for; the code generator is told whether it fails. -/
structure StageScripts where
  parser : Option ParserScript
  analyzer : Option AnalyzerScript
  codeGenerator : Option Bool
deriving DecidableEq, Repr

namespace StageScripts

def stages (scripts : StageScripts) : Stages ParserAnswer where
  parser := scripts.parser.map ParserScript.parser
  analyzer := scripts.analyzer.map AnalyzerScript.analyzer
  codeGenerator := scripts.codeGenerator.map listingGenerator

variable (scripts : StageScripts)

theorem uniform_of_mem : ∀ parser ∈ scripts.stages.parser, parser.Uniform := by
  intro parser present
  obtain ⟨script, -, rfl⟩ := Option.map_eq_some_iff.mp present
  exact script.uniform

theorem blind_of_mem : ∀ analyzer ∈ scripts.stages.analyzer, Run.BlindAnalyzer analyzer := by
  intro analyzer present
  obtain ⟨script, -, rfl⟩ := Option.map_eq_some_iff.mp present
  exact script.blind

end StageScripts

end FrontEnd.Script
