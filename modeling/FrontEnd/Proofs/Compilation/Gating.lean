import FrontEnd.Proofs.Compilation.Onward
import FrontEnd.Proofs.Compilation.Plan

/-! # Gates between the stages

A run calls a stage if its phase needs it and the gate before it is open. A gate is open if what was
done before has not failed and has left the error flag down. So which stages are called can be told
from what the stages before them have left behind. A run whose phase needs a stage that is missing
is refused and calls nothing.
-/

namespace FrontEnd

/-- Every call of a stage, in the order in which a run makes them. -/
def StageCall.all : List StageCall :=
  [parse, buildSymbols, checkTypes, generate]

/-- What a compiler is asked for: a run of its stages over a source. -/
structure Job (ρ : Type) where
  stages : Stages ρ
  settings : Settings
  source : String
  codePath : Path

namespace Job

open Run

variable {ρ : Type}

def run (job : Job ρ) : Run ρ (Option Path) :=
  ofStages job.stages job.settings job.source job.codePath

def needs (job : Job ρ) (stage : Stage) : Bool :=
  stage ∈ job.settings.phase.needs

/-- The first stage that is needed but not there. -/
def missing? (job : Job ρ) : Option Stage :=
  job.stages.missing? job.settings.phase

def session (job : Job ρ) (start : Workspace ρ) : Session (Transcriber Lexer) :=
  openTranscript job.settings job.source
    { start with journal := start.journal ++ [.parsing] }

/-- The run up to the end of its parse phase. -/
def parsing (job : Job ρ) : Run ρ Forest :=
  match job.stages.parser with
  | none => throw (.missingStage .parser job.settings.phase)
  | some parser => parse job.settings job.source parser

/-- The run up to the end of the first pass of its analyzer, with the gate before it left open. -/
def symbols (job : Job ρ) : Run ρ Unit := do
  let forest ← job.parsing
  match job.stages.analyzer with
  | none => throw (.missingStage .analyzer job.settings.phase)
  | some analyzer =>
    writeWhen job.settings.traceAnalyze "\nBuilding Symbol Table...\n"
    atDesk .buildSymbols (analyzer.buildSymbols forest)

/-- The run up to the end of its analysis, with the gate before it left open. -/
def analysis (job : Job ρ) : Run ρ Forest := do
  let forest ← job.parsing
  match job.stages.analyzer with
  | none => throw (.missingStage .analyzer job.settings.phase)
  | some analyzer => analyze job.settings analyzer forest

def succeeds {α : Type} (work : Run ρ α) (start : Workspace ρ) : Bool :=
  match work start with
  | .ok .. => true
  | .error .. => false

def flags {α : Type} (work : Run ρ α) (start : Workspace ρ) : Bool :=
  (after work start).status.flagged

/-- Whether a run comes to call a stage: the phase needs it, and all gates before it are open. -/
def reaches (job : Job ρ) (start : Workspace ρ) : StageCall → Bool
  | .parse => job.needs .parser
  | .buildSymbols => job.needs .analyzer && !flags job.parsing start
  | .checkTypes =>
    job.needs .analyzer && !flags job.parsing start && succeeds job.symbols start
  | .generate =>
    job.needs .codeGenerator && succeeds job.analysis start && !flags job.analysis start &&
      (start.files.create job.codePath).isOk

/-- What a run calls and how it ends. -/
structure Course (job : Job ρ) (start : Workspace ρ) : Prop where
  /-- A run is refused for the first stage that is missing, and then nothing has changed. -/
  refused (stage phase last) : job.run start = .error (.missingStage stage phase) last ↔
    job.missing? = some stage ∧ phase = job.settings.phase ∧ last = start
  /-- The stages are called that the run reaches, each once and in order. -/
  calls : job.missing? = none →
    (after job.run start).calls = start.calls ++ StageCall.all.filter (job.reaches start)
  /-- Code comes from the code generator, and goes where it was asked for. -/
  code (path last) : job.run start = .ok (some path) last →
    path = job.codePath ∧ job.reaches start .generate = true
  /-- Where the code generator is called there is code, unless it could not be written. -/
  generated : job.missing? = none → job.reaches start .generate = true →
    ∃ last, job.run start = .ok (some job.codePath) last ∨
      ∃ fault, job.run start = .error (.codeNotWritten job.codePath fault) last
  /-- Where the analysis is started and fails, the run fails with it. -/
  failed (failure stopped) : job.missing? = none → job.reaches start .buildSymbols = true →
    job.analysis start = .error failure stopped → ∃ last, job.run start = .error failure last
  /-- A run ends without code where its phase is over or the flag has closed a gate. -/
  ended : job.missing? = none →
    job.needs .analyzer = false ∨ flags job.parsing start = true ∨
      succeeds job.analysis start = true ∧
        (job.needs .codeGenerator = false ∨ flags job.analysis start = true) →
    ∃ last, job.run start = .ok none last
  /-- No run lowers the flag. -/
  kept : start.status.flagged = true → flags job.run start = true

section

variable {job : Job ρ} {start last : Workspace ρ}

/-- A run that ends without code. -/
theorem course_of_none (present : job.missing? = none) (ran : job.run start = .ok none last)
    (calls : last.calls = start.calls ++ StageCall.all.filter (job.reaches start))
    (kept : start.status.flagged = true → last.status.flagged = true)
    (unreached : job.reaches start .generate = false)
    (sound : job.reaches start .buildSymbols = true → succeeds job.analysis start = true) :
    job.Course start where
  refused stage phase other := by simp [ran, present]
  calls _ := by rw [after_of_ok ran, calls]
  code path other done := by simp [ran] at done
  generated _ reached := by simp [unreached] at reached
  failed failure stopped _ reached failed := by
    have analyzed := sound reached
    simp [succeeds, failed] at analyzed
  ended _ _ := ⟨last, ran⟩
  kept := by rwa [flags, after_of_ok ran]

/-- A run that ends with code. -/
theorem course_of_code (present : job.missing? = none)
    (ran : job.run start = .ok (some job.codePath) last)
    (calls : last.calls = start.calls ++ StageCall.all.filter (job.reaches start))
    (kept : start.status.flagged = true → last.status.flagged = true)
    (reached : job.reaches start .generate = true) (needed : job.needs .analyzer = true)
    (clear : flags job.parsing start = false) : job.Course start where
  refused stage phase other := by simp [ran, present]
  calls _ := by rw [after_of_ok ran, calls]
  code path other done := by
    rw [ran] at done
    cases done
    exact ⟨rfl, reached⟩
  generated _ _ := ⟨last, .inl ran⟩
  failed failure stopped _ _ failed := by simp [reaches, succeeds, failed] at reached
  ended _ closed := by
    rcases closed with unneeded | flagged | ⟨-, unneeded | flagged⟩
    · simp [needed] at unneeded
    · simp [clear] at flagged
    · simp [reaches, unneeded] at reached
    · simp [reaches, flagged] at reached
  kept := by rwa [flags, after_of_ok ran]

/-- A run that fails, with all gates open up to there. -/
theorem course_of_failure {failure : Failure} (present : job.missing? = none)
    (ran : job.run start = .error failure last)
    (failed : ∀ stage phase, failure ≠ .missingStage stage phase)
    (calls : last.calls = start.calls ++ StageCall.all.filter (job.reaches start))
    (kept : start.status.flagged = true → last.status.flagged = true)
    (needed : job.needs .analyzer = true) (clear : flags job.parsing start = false)
    (analyzed : succeeds job.analysis start = true →
      job.needs .codeGenerator = true ∧ flags job.analysis start = false)
    (reason : (∃ stopped, job.analysis start = .error failure stopped) ∨
      succeeds job.analysis start = true ∧ (job.reaches start .generate = true →
        ∃ fault, failure = .codeNotWritten job.codePath fault)) :
    job.Course start where
  refused stage phase other := by simp [ran, present, failed]
  calls _ := by rw [after_of_error ran, calls]
  code path other done := by simp [ran] at done
  generated _ reached := by
    rcases reason with ⟨stopped, failed⟩ | ⟨-, written⟩
    · simp [reaches, succeeds, failed] at reached
    · obtain ⟨fault, rfl⟩ := written reached
      exact ⟨last, .inr ⟨fault, ran⟩⟩
  failed other stopped _ _ failed := by
    rcases reason with ⟨stopped', failed'⟩ | ⟨analyzed, -⟩
    · rw [failed] at failed'
      cases failed'
      exact ⟨last, ran⟩
    · simp [succeeds, failed] at analyzed
  ended _ closed := by
    rcases closed with unneeded | flagged | ⟨succeeds, closed⟩
    · simp [needed] at unneeded
    · simp [clear] at flagged
    · simp [analyzed succeeds] at closed
  kept := by rwa [flags, after_of_error ran]

/-! ## The steps of a run -/

theorem parsing_eq {parser : Parser ρ} (parses : job.stages.parser = some parser) :
    job.parsing = parse job.settings job.source parser := by
  simp only [parsing, parses]

theorem skips_of_clear (activity : Journal.Activity) (clear : start.status.flagged = false) :
    skips activity start = .ok false start := by
  obtain ⟨⟨line, flagged⟩, _, _, _, _, _⟩ := start
  cases clear
  rfl

theorem skips_of_flagged (activity : Journal.Activity) (flagged : start.status.flagged = true) :
    ∃ last, skips activity start = .ok true last ∧ start.Onward [] last ∧
      last.listing = start.listing := by
  obtain ⟨⟨line, _⟩, _, _, _, _, calls⟩ := start
  cases flagged
  exact ⟨_, rfl, ⟨(List.append_nil calls).symm, rfl, id, id⟩, rfl⟩

/-- A run with a missing stage is refused. -/
theorem run_of_missing {stage : Stage} (missing : job.missing? = some stage) (start : Workspace ρ) :
    job.run start = .error (.missingStage stage job.settings.phase) start := by
  rcases job.stages.plan_cases job.settings.phase with
    ⟨other, planned, missing'⟩ | ⟨plan, -, present, -⟩
  · cases missing.symm.trans missing'
    simp only [run, ofStages, planned]
    rfl
  · cases missing.symm.trans present

/-- A run without a missing stage carries out the plan for its phase. -/
theorem exists_plan (present : job.missing? = none) :
    ∃ plan, job.stages.Provides job.settings.phase plan ∧
      job.run = ofPlan job.settings job.source job.codePath plan := by
  rcases job.stages.plan_cases job.settings.phase with
    ⟨stage, -, missing⟩ | ⟨plan, planned, -, provides⟩
  · cases present.symm.trans missing
  · exact ⟨plan, provides, by simp only [run, ofStages, planned]⟩

/-- A run ends where its parse phase has left the flag up. -/
theorem run_of_flagged (present : job.missing? = none) (needed : job.needs .parser = true)
    {forest : Forest} {parsed : Workspace ρ} (done : job.parsing start = .ok forest parsed)
    (flagged : parsed.status.flagged = true) :
    ∃ last, job.run start = .ok none last ∧ parsed.Onward [] last ∧
      last.listing = parsed.listing := by
  obtain ⟨plan, provides, run_eq⟩ := exists_plan present
  obtain ⟨closed, skipped, onward, listing⟩ := skips_of_flagged .analysis flagged
  simp only [needs] at needed
  generalize job.settings.phase = phase at provides needed
  rw [run_eq]
  cases provides with
  | scan => simp [Phase.needs] at needed
  | parse parses =>
    rw [parsing_eq parses] at done
    exact ⟨parsed, bind_of_ok done, ⟨(List.append_nil _).symm, rfl, id, id⟩, rfl⟩
  | analyze parses | generate parses =>
    rw [parsing_eq parses] at done
    refine ⟨closed, ?_, onward, listing⟩
    exact (bind_of_ok done).trans (bind_of_ok skipped)

section

variable (proper : job.stages.Proper) (unlimited : start.listing.limit = none)
  {parser : Parser ρ} (parses : job.stages.parser = some parser)

include proper unlimited parses

theorem parsing_run :
    ∃ forest parsed, job.parsing start = .ok forest parsed ∧ start.Onward [.parse] parsed := by
  rw [parsing_eq parses]
  exact completes_parse _ _ (proper.parser _ parses) start unlimited

variable {analyzer : Analyzer} (analyzes : job.stages.analyzer = some analyzer)

include analyzes

/-- The analysis stops with the first pass if that fails, and otherwise goes on to the second. -/
theorem analysis_run :
    (after job.parsing start).Onward
        (.buildSymbols :: if succeeds job.symbols start then [.checkTypes] else [])
        (after job.analysis start) ∧
      (succeeds job.analysis start = true → succeeds job.symbols start = true) ∧
      ∀ failure last, job.analysis start = .error failure last →
        ∃ fault, failure = .listingNotWritten fault := by
  obtain ⟨forest, parsed, done, onward⟩ := parsing_run proper unlimited parses
  have sound := proper.analyzer _ analyzes
  let first : Run ρ Unit := do
    writeWhen job.settings.traceAnalyze "\nBuilding Symbol Table...\n"
    atDesk .buildSymbols (analyzer.buildSymbols forest)
  let second : Run ρ Forest := do
    writeWhen job.settings.traceAnalyze "\nChecking Types...\n"
    let checked ← atDesk .checkTypes (analyzer.checkTypes forest)
    writeWhen job.settings.traceAnalyze "\nType Checking Finished\n"
    pure checked
  have symbols_eq : job.symbols start = first parsed := by
    rw [symbols, bind_of_ok done, analyzes]
  have analysis_eq : job.analysis start = (first >>= fun _ => second) parsed := by
    rw [analysis, bind_of_ok done, analyzes]
    simp only [analyze, first, second, bind_assoc]
  have firstAttempt : Attempts [.buildSymbols] first :=
    (completes_writeWhen _ _).bind_attempts fun _ => attempts_atDesk (sound.symbols forest)
  have secondAttempt : Attempts [.checkTypes] second :=
    (completes_writeWhen _ _).bind_attempts fun _ =>
      (attempts_atDesk (sound.types forest)).bind_completes fun checked =>
        (completes_writeWhen _ _).bind fun _ => completes_pure checked
  have room := onward.unlimited unlimited
  have passed := firstAttempt.onward parsed room
  rw [after_of_ok done, succeeds, succeeds, symbols_eq, after, analysis_eq]
  cases ran : first parsed with
  | error failure last =>
    rw [after_of_error ran] at passed
    rw [bind_of_error ran]
    refine ⟨passed, id, ?_⟩
    rintro _ _ ⟨rfl, rfl⟩
    exact firstAttempt.failure parsed room ran
  | ok _ middle =>
    rw [after_of_ok ran] at passed
    rw [bind_of_ok ran]
    have room' := passed.unlimited room
    exact ⟨passed.trans (secondAttempt.onward middle room'), fun _ => rfl,
      fun _ _ stopped => secondAttempt.failure middle room' stopped⟩

/-- A run that needs an analyzer takes its course, if it does so after a successful analysis. -/
theorem course_of_analysis (present : job.missing? = none) (needed : job.needs .analyzer = true)
    {rest : Forest → Run ρ (Option Path)}
    (shape : job.run = do
      let forest ← parse job.settings job.source parser
      if ← skips .analysis then pure none
      else
        let checked ← analyze job.settings analyzer forest
        rest checked)
    (later : ∀ checked last, job.analysis start = .ok checked last →
      flags job.parsing start = false → succeeds job.symbols start = true →
      start.Onward [.parse, .buildSymbols, .checkTypes] last →
      job.run start = rest checked last → job.Course start) :
    job.Course start := by
  obtain ⟨forest, parsed, done, onward⟩ := parsing_run proper unlimited parses
  obtain ⟨onward', passed, faults⟩ := analysis_run proper unlimited parses analyzes
  rw [after_of_ok done] at onward'
  have flags_parsing : flags job.parsing start = parsed.status.flagged := by
    rw [flags, after_of_ok done]
  have analysis_eq : job.analysis start = analyze job.settings analyzer forest parsed := by
    rw [analysis, bind_of_ok done, analyzes]
  have parserNeeded : job.needs .parser = true := by
    simp only [needs] at needed ⊢
    generalize job.settings.phase = phase at needed
    cases phase <;> simp_all [Phase.needs]
  rw [← parsing_eq parses] at shape
  cases flagged : parsed.status.flagged with
  | true =>
    obtain ⟨last, ran, stayed, -⟩ := run_of_flagged present parserNeeded done flagged
    have onward := onward.trans stayed
    have closed : flags job.analysis start = true := onward'.flagged flagged
    refine course_of_none present ran ?_ onward.flagged ?_ ?_
    · rw [onward.calls]
      simp [StageCall.all, reaches, parserNeeded, flags_parsing, flagged, closed]
    · simp [reaches, closed]
    · simp [reaches, flags_parsing, flagged]
  | false =>
    have skipped := skips_of_clear .analysis flagged
    have ran : job.run start = (analyze job.settings analyzer forest >>= rest) parsed := by
      rw [shape, bind_of_ok done, bind_of_ok skipped]
      rfl
    have onward := onward.trans onward'
    cases analyzed : job.analysis start with
    | ok checked last =>
      have symbols : succeeds job.symbols start = true := passed (by rw [succeeds, analyzed])
      rw [after_of_ok analyzed, if_pos symbols] at onward
      rw [analysis_eq] at analyzed
      exact later checked last (analysis_eq.trans analyzed) (flags_parsing.trans flagged) symbols
        onward (ran.trans (bind_of_ok analyzed))
    | error failure last =>
      obtain ⟨fault, rfl⟩ := faults _ _ analyzed
      have stopped : succeeds job.analysis start = false := by rw [succeeds, analyzed]
      rw [after_of_error analyzed] at onward
      have ran := ran.trans (bind_of_error (analysis_eq ▸ analyzed))
      refine course_of_failure present ran ?_ ?_ onward.flagged needed
        (flags_parsing.trans flagged) ?_ (.inl ⟨last, analyzed⟩)
      · simp
      · rw [onward.calls]
        cases symbols : succeeds job.symbols start <;>
          simp [StageCall.all, reaches, parserNeeded, needed, flags_parsing, flagged, stopped, symbols]
      · simp [stopped]

end

/-- After a successful analysis a run goes on to its code, if the flag is down and the file of the
code can be created. -/
theorem course_of_generation (present : job.missing? = none)
    (phase : job.settings.phase = .generate) {generator : CodeGenerator} {checked : Forest}
    (analyzed : job.analysis start = .ok checked last) (clear : flags job.parsing start = false)
    (symbols : succeeds job.symbols start = true)
    (onward : start.Onward [.parse, .buildSymbols, .checkTypes] last)
    (ran : job.run start = (do
      if ← skips .codeGeneration then pure none
      else some <$> generate job.settings generator job.codePath checked :
      Run ρ (Option Path)) last) :
    job.Course start := by
  have needed (stage : Stage) : job.needs stage = true := by
    cases stage <;> simp [needs, phase, Phase.needs]
  have analysis : succeeds job.analysis start = true := by rw [succeeds, analyzed]
  have flags_analysis : flags job.analysis start = last.status.flagged := by
    rw [flags, after_of_ok analyzed]
  have files : last.files = start.files := onward.files
  cases flagged : last.status.flagged with
  | true =>
    obtain ⟨closed, skipped, stayed, -⟩ := skips_of_flagged .codeGeneration flagged
    have onward := onward.trans stayed
    refine course_of_none present (ran.trans (bind_of_ok skipped)) ?_ onward.flagged ?_
      fun _ => analysis
    · rw [onward.calls]
      simp [StageCall.all, reaches, needed, clear, symbols, flags_analysis, flagged]
    · simp [reaches, flags_analysis, flagged]
  | false =>
    have skipped := skips_of_clear .codeGeneration flagged
    have ran : job.run start = _ := ran.trans (bind_of_ok skipped)
    have down : flags job.analysis start = false := flags_analysis.trans flagged
    rcases generate_run job.settings generator job.codePath checked last with
      ⟨fault, refused, generated⟩ | ⟨done, created, generated, calls, status⟩
    · have unreached : job.reaches start .generate = false := by simp [reaches, ← files, refused]
      refine course_of_failure present (ran.trans generated) (by simp) ?_ onward.flagged (needed _)
        clear (fun _ => ⟨needed _, down⟩) (.inr ⟨analysis, by simp [unreached]⟩)
      rw [onward.calls]
      simp [StageCall.all, reaches, needed, clear, symbols, ← files, refused]
    · have reached : job.reaches start .generate = true := by
        simp [reaches, needed, analysis, down, ← files, created]
      have calls : done.calls = start.calls ++ StageCall.all.filter (job.reaches start) := by
        rw [calls, onward.calls]
        simp [StageCall.all, reaches, needed, clear, symbols, analysis, down, ← files, created]
      have kept : start.status.flagged = true → done.status.flagged = true := by
        rw [status]
        exact onward.flagged
      rcases generated with generated | ⟨fault, generated⟩
      · exact course_of_code present (ran.trans generated) calls kept reached (needed _) clear
      · exact course_of_failure present (ran.trans generated) (by simp) calls kept (needed _) clear
          (fun _ => ⟨needed _, down⟩) (.inr ⟨analysis, fun _ => ⟨fault, rfl⟩⟩)

/-- With proper stages and a listing that is never full, every run takes its course. -/
theorem course (proper : job.stages.Proper) (unlimited : start.listing.limit = none) :
    job.Course start := by
  cases present : job.missing? with
  | some stage =>
    have ran := run_of_missing present start
    constructor
    case refused =>
      intro other phase last
      rw [ran, present]
      simp only [EStateM.Result.error.injEq, Failure.missingStage.injEq, Option.some.injEq]
      grind
    case calls => simp [present]
    case code => simp [ran]
    case generated => simp [present]
    case failed => simp [present]
    case ended => simp [present]
    case kept => simp [flags, after_of_error ran]
  | none =>
    obtain ⟨plan, provides, run_eq⟩ := exists_plan present
    cases phase : job.settings.phase with
    | scan =>
      rw [phase] at provides
      cases provides
      obtain ⟨_, last, ran, onward⟩ := completes_scan job.settings job.source start unlimited
      refine course_of_none present ?_ ?_ onward.flagged ?_ ?_
      · rw [run_eq]
        exact bind_of_ok ran
      · rw [onward.calls]
        simp [StageCall.all, reaches, needs, phase, Phase.needs]
      · simp [reaches, needs, phase, Phase.needs]
      · simp [reaches, needs, phase, Phase.needs]
    | parse =>
      rw [phase] at provides
      cases provides with | parse parses =>
      obtain ⟨forest, last, ran, onward⟩ := parsing_run proper unlimited parses
      refine course_of_none present ?_ ?_ onward.flagged ?_ ?_
      · rw [parsing_eq parses] at ran
        rw [run_eq]
        exact bind_of_ok ran
      · rw [onward.calls]
        simp [StageCall.all, reaches, needs, phase, Phase.needs]
      · simp [reaches, needs, phase, Phase.needs]
      · simp [reaches, needs, phase, Phase.needs]
    | analyze =>
      rw [phase] at provides
      cases provides with | analyze parses analyzes =>
      have needed : job.needs .analyzer = true := by simp [needs, phase, Phase.needs]
      refine course_of_analysis proper unlimited parses analyzes present needed run_eq ?_
      intro checked last analyzed clear symbols onward ran
      refine course_of_none present ran ?_ onward.flagged ?_ ?_
      · rw [onward.calls]
        simp [StageCall.all, reaches, needs, phase, Phase.needs, clear, symbols]
      · simp [reaches, needs, phase, Phase.needs]
      · simp [succeeds, analyzed]
    | generate =>
      rw [phase] at provides
      cases provides with | @generate parser analyzer generator parses analyzes generates =>
      have needed : job.needs .analyzer = true := by simp [needs, phase, Phase.needs]
      refine course_of_analysis proper unlimited parses analyzes present needed run_eq ?_
      intro checked last analyzed clear symbols onward ran
      exact course_of_generation present phase analyzed clear symbols onward ran

/-! ## The flag -/

/-- A run that calls a parser at most, and yields no code. -/
structure Barren (job : Job ρ) (start : Workspace ρ) : Prop where
  calls : ∃ calls, (after job.run start).calls = start.calls ++ calls ∧ ∀ stage ∈ calls, stage = .parse
  code (path last) : job.run start ≠ .ok (some path) last

/-- What holds of every run with proper stages and a listing that is never full. -/
structure Gated (job : Job ρ) (start : Workspace ρ) : Prop extends Course job start where
  /-- The flag is up after parsing if it was up before, if the parser raised it or was handed a
  fault, or if memory ran out. -/
  raised (parser) : parser ∈ job.stages.parser →
    let session := job.session start
    let parsed := parser.parse session
    ∃ uses, parsed.session = session.useAll uses ∧
      (flags job.parsing start = true ↔
        start.status.flagged = true ∨ .flag ∈ uses ∨
          (∃ token ∈ session.taken uses, token.kind.isFault = true) ∨
          ∃ failure, parsed.result = .error failure)
  /-- A parser that runs out of memory has that listed, and the run ends there. -/
  outOfMemory (parser failure) : parser ∈ job.stages.parser →
    job.missing? = none → job.needs .parser = true →
    let parsed := parser.parse (job.session start)
    parsed.result = .error failure →
    ∃ last, job.run start = .ok none last ∧ last.status.flagged = true ∧
      last.calls = start.calls ++ [.parse] ∧
      (parsed.session.scanner.listing.write (failure.message ++ "\n")).Grows last.listing
  /-- A run that starts with the flag up is barren. -/
  barren : start.status.flagged = true → job.Barren start

/-- A flag that is up from the start leaves every gate closed. -/
theorem barren_of_flagged (proper : job.stages.Proper) (unlimited : start.listing.limit = none)
    (flagged : start.status.flagged = true) : job.Barren start := by
  cases present : job.missing? with
  | some stage =>
    have ran := run_of_missing present start
    constructor
    case calls =>
      rw [after_of_error ran]
      exact ⟨[], (List.append_nil _).symm, nofun⟩
    case code => simp [ran]
  | none =>
    obtain ⟨plan, provides, run_eq⟩ := exists_plan present
    have ended {calls last} (ran : job.run start = .ok none last) (onward : start.Onward calls last)
        (only : ∀ stage ∈ calls, stage = .parse) : job.Barren start := by
      constructor
      case calls =>
        rw [after_of_ok ran]
        exact ⟨calls, onward.calls, only⟩
      case code => simp [ran]
    cases provides.scan_or_parser with
    | inl scan =>
      obtain ⟨-, rfl⟩ := scan
      obtain ⟨_, last, ran, onward⟩ := completes_scan job.settings job.source start unlimited
      exact ended (by rw [run_eq]; exact bind_of_ok ran) onward (by simp)
    | inr parses =>
      obtain ⟨needed, parser, parses⟩ := parses
      have needed : job.needs .parser = true := by simpa [needs] using needed
      obtain ⟨forest, parsed, done, onward⟩ := parsing_run proper unlimited parses
      obtain ⟨last, ran, stayed, -⟩ := run_of_flagged present needed done (onward.flagged flagged)
      exact ended ran (onward.trans stayed) (by simp)

theorem gated (proper : job.stages.Proper) (unlimited : start.listing.limit = none) :
    job.Gated start where
  toCourse := course proper unlimited
  raised parser parses := by
    intro session parsed
    obtain ⟨uses, used⟩ := proper.parser parser parses session
    obtain ⟨last, done, -, raised, -⟩ :=
      parse_run job.settings job.source (proper.parser parser parses) unlimited
    have free : session.scanner.Free := free_openTranscript _ _ unlimited
    have status : session.status = start.status := rfl
    refine ⟨uses, used, ?_⟩
    rw [flags, parsing_eq parses, after_of_ok done, raised]
    change parsed.session.status.flagged = true ∨ _ ↔ _
    rw [used, Session.flagged_useAll_iff free, status, or_assoc, or_assoc]
    rfl
  outOfMemory parser failure parses present needed := by
    intro parsed failed
    obtain ⟨last, done, onward, raised, listed⟩ :=
      parse_run job.settings job.source (proper.parser parser parses) unlimited
    rw [← parsing_eq parses] at done
    have flagged := raised.mpr (.inr ⟨failure, failed⟩)
    obtain ⟨closed, ran, stayed, listing⟩ := run_of_flagged present needed done flagged
    refine ⟨closed, ran, stayed.flagged flagged, ?_, ?_⟩
    · rw [(onward.trans stayed).calls]
      rfl
    · rw [listing]
      exact listed failure failed
  barren := barren_of_flagged proper unlimited

end

end Job

end FrontEnd
