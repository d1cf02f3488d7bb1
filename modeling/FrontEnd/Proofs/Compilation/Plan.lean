import FrontEnd.Compilation.Stage

/-! # Plans for a phase

A phase needs the stages of all phases up to it. If they are there, the plan for the phase is made
of them. If not, the first one that is missing is named.
-/

namespace FrontEnd

variable {ρ : Type}

/-- The stages that a phase needs, in the order in which they are run. -/
def Phase.needs : Phase → List Stage
  | scan => []
  | parse => [.parser]
  | analyze => [.parser, .analyzer]
  | generate => [.parser, .analyzer, .codeGenerator]

namespace Stages

variable {stages : Stages ρ} {phase : Phase}

def has (stages : Stages ρ) : Stage → Bool
  | .parser => stages.parser.isSome
  | .analyzer => stages.analyzer.isSome
  | .codeGenerator => stages.codeGenerator.isSome

def missing? (stages : Stages ρ) (phase : Phase) : Option Stage :=
  phase.needs.find? fun stage => !stages.has stage

/-- A plan whose stages are there, for its phase. -/
inductive Provides (stages : Stages ρ) : Phase → Plan ρ → Prop where
  | scan : Provides stages .scan .scan
  | parse {parser} (parses : stages.parser = some parser) : Provides stages .parse (.parse parser)
  | analyze {parser analyzer} (parses : stages.parser = some parser)
    (analyzes : stages.analyzer = some analyzer) :
    Provides stages .analyze (.analyze parser analyzer)
  | generate {parser analyzer generator} (parses : stages.parser = some parser)
    (analyzes : stages.analyzer = some analyzer)
    (generates : stages.codeGenerator = some generator) :
    Provides stages .generate (.generate parser analyzer generator)

/-- A phase is the scan phase, or it needs a parser, and there is one. -/
theorem Provides.scan_or_parser {plan : Plan ρ} (provides : stages.Provides phase plan) :
    (phase = .scan ∧ plan = .scan) ∨
      .parser ∈ phase.needs ∧ ∃ parser, stages.parser = some parser := by
  cases provides with
  | scan => exact .inl ⟨rfl, rfl⟩
  | parse parses | analyze parses | generate parses => exact .inr ⟨by decide, _, parses⟩

/-- Either a stage is missing, and the first such is named, or there is a plan. -/
theorem plan_cases (stages : Stages ρ) (phase : Phase) :
    (∃ stage, stages.plan phase = .error stage ∧ stages.missing? phase = some stage) ∨
      ∃ plan, stages.plan phase = .ok plan ∧ stages.missing? phase = .none ∧
        stages.Provides phase plan := by
  obtain ⟨parser, analyzer, codeGenerator⟩ := stages
  cases phase with
  | scan => exact .inr ⟨_, rfl, rfl, .scan⟩
  | parse =>
    rcases parser with _ | parser
    · exact .inl ⟨_, rfl, rfl⟩
    exact .inr ⟨_, rfl, rfl, .parse rfl⟩
  | analyze =>
    rcases parser with _ | parser
    · exact .inl ⟨_, rfl, rfl⟩
    rcases analyzer with _ | analyzer
    · exact .inl ⟨_, rfl, rfl⟩
    exact .inr ⟨_, rfl, rfl, .analyze rfl rfl⟩
  | generate =>
    rcases parser with _ | parser
    · exact .inl ⟨_, rfl, rfl⟩
    rcases analyzer with _ | analyzer
    · exact .inl ⟨_, rfl, rfl⟩
    rcases codeGenerator with _ | generator
    · exact .inl ⟨_, rfl, rfl⟩
    exact .inr ⟨_, rfl, rfl, .generate rfl rfl rfl⟩

theorem provides_of_plan {plan : Plan ρ} (planned : stages.plan phase = .ok plan) :
    stages.Provides phase plan := by
  rcases stages.plan_cases phase with ⟨stage, refused, -⟩ | ⟨other, planned', -, provides⟩
  · rw [planned] at refused
    cases refused
  · rw [planned] at planned'
    cases planned'
    exact provides

end FrontEnd.Stages
