import FrontEnd.Proofs.Compilation.Handing
import FrontEnd.Proofs.Compilation.Preparation

/-! # How a run ends

The gates that a run comes to and the file that it opens for its code are read off the run: they
depend on what its parse phase and its analysis leave behind. What is told of them comes last, and
files are touched by nothing but the opening of the file of the code.
-/

namespace FrontEnd

open Journal

variable {ρ : Type}

namespace Run

theorem after_map {α β : Type} (change : α → β) (work : Run ρ α) (start : Workspace ρ) :
    after (change <$> work) start = after work start := by
  simp only [after, Functor.map, EStateM.map]
  cases work start <;> rfl

end Run

namespace Job

open Run

variable {job : Job ρ} {start : Workspace ρ}

/-- The workspace before the gate of an activity, if a run comes there. -/
def atGate (job : Job ρ) (start : Workspace ρ) : Activity → Option (Workspace ρ)
  | .analysis =>
    if job.missing? = none ∧ job.needs .analyzer = true then last? job.parsing start else none
  | .codeGeneration =>
    if job.missing? = none ∧ job.needs .codeGenerator = true then
      (last? job.parsing start).bind fun parsed =>
        if parsed.status.flagged then none else last? job.analysis start
    else none

/-- Whether a run comes to the gate of an activity with the error flag up. -/
def closes (job : Job ρ) (start : Workspace ρ) (activity : Activity) : Bool :=
  (job.atGate start activity).any fun before => before.status.flagged

/-- The file that a run opens for its code, and the files once it is there. -/
def opened? (job : Job ρ) (start : Workspace ρ) : Option (Location × FileTree) :=
  (job.atGate start .codeGeneration).bind fun before =>
    if before.status.flagged then none else (before.files.create job.codePath).toOption

/-- What a run tells of its gates and its code, which comes last. -/
def ending (job : Job ρ) (start : Workspace ρ) : List Entry :=
  ([Activity.analysis, .codeGeneration].flatMap fun activity =>
      if job.closes start activity then [.skipping activity] else []) ++
    ((job.opened? start).map fun _ => .generating job.codePath.text).toList

theorem ending_eq (job : Job ρ) (start : Workspace ρ) :
    job.ending start =
      (if job.closes start .analysis then [.skipping .analysis] else []) ++
        (if job.closes start .codeGeneration then [.skipping .codeGeneration] else []) ++
        ((job.opened? start).map fun _ => .generating job.codePath.text).toList := by
  simp [ending]

/-- The gate before the analysis is open if parsing has left the flag down. -/
theorem closes_of_clear {forest : Forest} {parsed : Workspace ρ}
    (done : job.parsing start = .ok forest parsed) (clear : parsed.status.flagged = false) :
    job.closes start .analysis = false := by
  rw [closes, atGate, last?, done]
  split
  · exact clear
  · rfl

/-- The topics of a run before it comes to its end. -/
def beforeEnding : List Topic :=
  [.progress, .faults, .flag, .transcript, .verdict]

/-- How a run ends: what it tells of its gates and its code comes last, and the files are as they
were but for the file of the code. -/
structure Finishes (job : Job ρ) (start last : Workspace ρ) : Prop where
  log : ∃ before, last.journal = before ++ job.ending start ∧
    AddsTo beforeEnding start.journal before
  unopened : job.opened? start = none → last.files = start.files
  opened : ∀ location created, job.opened? start = some (location, created) →
    ∃ text, last.files = created.put location (.file text)

/-- A run that opens no file. -/
theorem finishes_of_unopened {before : List Entry} {last : Workspace ρ}
    (unopened : job.opened? start = none) (log : last.journal = before ++ job.ending start)
    (adds : AddsTo beforeEnding start.journal before) (files : last.files = start.files) :
    job.Finishes start last where
  log := ⟨before, log, adds⟩
  unopened _ := files
  opened location created opened := by
    rw [unopened] at opened
    cases opened

/-- A run that tells nothing of its end. -/
theorem finishes_of_silent {last : Workspace ρ} (passes : job.closes start .analysis = false)
    (unreached : job.atGate start .codeGeneration = none ∨
      job.closes start .codeGeneration = false ∧ job.opened? start = none)
    (adds : AddsTo beforeEnding start.journal last.journal) (files : last.files = start.files) :
    job.Finishes start last := by
  obtain ⟨passes', unopened⟩ :
      job.closes start .codeGeneration = false ∧ job.opened? start = none := by
    obtain unreached | both := unreached
    · simp [closes, opened?, unreached]
    · exact both
  have silent : job.ending start = [] := by simp [ending_eq, passes, passes', unopened]
  exact finishes_of_unopened unopened (by rw [silent, List.append_nil]) adds files

/-- A run that finds the second gate open ends with the file of its code, if that can be opened. -/
theorem finishes_of_reached (passes : job.closes start .analysis = false) {last : Workspace ρ}
    (reached : job.atGate start .codeGeneration = some last) (clear : last.status.flagged = false)
    (adds : AddsTo beforeEnding start.journal last.journal) (files : last.files = start.files)
    (generator : CodeGenerator) (checked : Forest) :
    job.Finishes start (after (generate job.settings generator job.codePath checked) last) := by
  have passes' : job.closes start .codeGeneration = false := by simp [closes, reached, clear]
  have opens : job.opened? start = (last.files.create job.codePath).toOption := by
    simp [opened?, reached, clear]
  rw [after, generate_apply]
  cases created : last.files.create job.codePath with
  | error fault =>
    rw [created] at opens
    exact finishes_of_silent passes (.inr ⟨passes', opens⟩) adds files
  | ok place =>
    obtain ⟨location, opened⟩ := place
    rw [created] at opens
    have ending : job.ending start = [.generating job.codePath.text] := by
      rw [ending_eq, passes, passes', opens]
      rfl
    let code := generator.generate checked job.codePath job.settings.traceCode
    have told : job.Finishes start { last with
        files := opened.put location (.file code.text.toUTF8)
        journal := last.journal ++ [.generating job.codePath.text]
        calls := last.calls ++ [.generate] } := by
      refine ⟨⟨last.journal, by rw [ending], adds⟩, fun unopened => ?_, fun _ _ same => ?_⟩
      · rw [opens] at unopened
        cases unopened
      · cases opens.symm.trans same
        exact ⟨_, rfl⟩
    -- A fault of the generator decides how the run fails, and nothing about what it leaves.
    cases failed : code.fault with
    | none =>
      simp only [code] at failed
      simpa only [failed] using told
    | some fault =>
      simp only [code] at failed
      simpa only [failed] using told

theorem finishes_of_scan (present : job.missing? = none) (phase : job.settings.phase = .scan) :
    job.Finishes start (after job.run start) := by
  rw [after_run_of_scan present phase]
  have scanned := (tells_scan job.settings job.source).adds start
  refine finishes_of_silent ?_ (.inl ?_) (scanned.mono (by decide))
    ((steady_scan job.settings job.source).files start)
  · simp [closes, atGate, needs, phase, Phase.needs]
  · simp [atGate, needs, phase, Phase.needs]

section

variable {parser : Parser ρ} {analyzer : Analyzer} {later : Forest → Run ρ (Option Path)}
  (parses : job.stages.parser = some parser)

include parses

theorem parsing_adds (proper : parser.Proper) (start : Workspace ρ) :
    AddsTo beforeEnding start.journal (after job.parsing start).journal := by
  rw [parsing_eq parses]
  exact (tells_parse job.settings job.source proper).adds start

theorem parsing_files (start : Workspace ρ) : (after job.parsing start).files = start.files := by
  rw [parsing_eq parses]
  exact (Preparation.parse job.settings job.source parses).keeps_files start

/-- A run up to the parse phase comes to no gate. -/
theorem finishes_of_parse (proper : parser.Proper)
    (shape : job.run = job.parsing >>= fun _ => pure none) (unneeded : job.needs .analyzer = false) (unneeded' : job.needs .codeGenerator = false) :
    job.Finishes start (after job.run start) := by
  rw [shape, after_bind_pure]
  refine finishes_of_silent ?_ (.inl ?_) (parsing_adds parses proper start)
    (parsing_files parses start)
  · simp [closes, atGate, unneeded]
  · simp [atGate, unneeded']

/-- A run whose parse phase stops it ends with that. -/
theorem finishes_of_unparsed (proper : parser.Proper) (shape : job.run = job.parsing >>= later)
    {failure : Failure} {stopped : Workspace ρ}
    (failed : job.parsing start = .error failure stopped) :
    job.Finishes start (after job.run start) := by
  have adds := parsing_adds parses proper start
  have files := parsing_files parses start
  rw [after_of_error failed] at adds files
  rw [shape, after_of_error (bind_of_error failed)]
  refine finishes_of_silent ?_ (.inl ?_) adds files
  · simp [closes, atGate, last?, failed]
  · simp [atGate, last?, failed]

/-- A run that finds the flag up behind its parse phase ends at the gate there. -/
theorem finishes_of_flagged (proper : parser.Proper) {work : Forest → Run ρ (Option Path)}
    (shape : job.run = job.parsing >>= fun forest => gate .analysis (work forest))
    (present : job.missing? = none) (needed : job.needs .analyzer = true) {forest : Forest}
    {parsed : Workspace ρ} (done : job.parsing start = .ok forest parsed)
    (flagged : parsed.status.flagged = true) : job.Finishes start (after job.run start) := by
  have adds := parsing_adds parses proper start
  have files := parsing_files parses start
  rw [after_of_ok done] at adds files
  have unopened : job.opened? start = none := by simp [opened?, atGate, last?, done, flagged]
  have told : job.ending start = [.skipping .analysis] := by
    simp [ending_eq, closes, unopened, atGate, last?, done, flagged, present, needed]
  rw [shape, after_of_ok ((bind_of_ok done).trans (gate_of_flagged .analysis flagged))]
  exact finishes_of_unopened unopened (by rw [told]) adds files

/-- How a run ends with a gate behind its parse phase, if it is known where the gate is open. -/
theorem finishes_of_gated (proper : parser.Proper) {work : Forest → Run ρ (Option Path)}
    (shape : job.run = job.parsing >>= fun forest => gate .analysis (work forest))
    (present : job.missing? = none) (needed : job.needs .analyzer = true)
    (opens : ∀ forest parsed, job.parsing start = .ok forest parsed →
      parsed.status.flagged = false → job.Finishes start (after job.run start)) :
    job.Finishes start (after job.run start) := by
  cases ran : job.parsing start with
  | error failure stopped => exact finishes_of_unparsed parses proper shape ran
  | ok forest parsed =>
    cases flagged : parsed.status.flagged with
    | true => exact finishes_of_flagged parses proper shape present needed ran flagged
    | false => exact opens forest parsed ran flagged

end

section

variable {parser : Parser ρ} {analyzer : Analyzer} (proper : job.stages.Proper)
  (parses : job.stages.parser = some parser) (analyzes : job.stages.analyzer = some analyzer)
  {forest : Forest} {parsed : Workspace ρ} (done : job.parsing start = .ok forest parsed)

theorem analysis_eq (analyzes : job.stages.analyzer = some analyzer)
    (done : job.parsing start = .ok forest parsed) :
    job.analysis start = analyze job.settings analyzer forest parsed := by
  rw [analysis, bind_of_ok done, analyzes]

include proper parses analyzes done

theorem analysis_adds : AddsTo beforeEnding start.journal (after job.analysis start).journal := by
  have parsing := parsing_adds parses (proper.parser parser parses) start
  have analysis := (tells_analyze job.settings (proper.analyzer analyzer analyzes) forest
    (List.mem_singleton_self _)).adds parsed
  rw [after_of_ok done] at parsing
  rw [after_congr (analysis_eq analyzes done)]
  exact parsing.trans (analysis.mono (by decide))

omit proper in
theorem analysis_files : (after job.analysis start).files = start.files := by
  have parsing := parsing_files parses start
  rw [after_of_ok done] at parsing
  rw [after_congr (analysis_eq analyzes done), ← parsing]
  exact (Preparation.analyze job.settings analyzes forest).keeps_files parsed

/-- A run up to the analysis has no gate behind that. -/
theorem finishes_of_analyzed (unneeded : job.needs .codeGenerator = false)
    (clear : parsed.status.flagged = false)
    (shape : job.run = job.parsing >>= fun forest => analyzing job.settings forest analyzer) :
    job.Finishes start (after job.run start) := by
  have passes : job.closes start .analysis = false := closes_of_clear done clear
  have unreached : job.atGate start .codeGeneration = none := by simp [atGate, unneeded]
  have ran : job.run start =
      (analyze job.settings analyzer forest >>= fun _ => pure none) parsed := by
    rw [shape, bind_of_ok done]
    exact gate_of_clear .analysis clear
  have same : after job.run start = after job.analysis start := by
    rw [after_congr ran, after_congr (analysis_eq analyzes done), after_bind_pure]
  rw [same]
  exact finishes_of_silent passes (.inl unreached) (analysis_adds proper parses analyzes done)
    (analysis_files parses analyzes done)

/-- A run up to the generation of code ends with its analysis, at the gate behind that, or with the
file of the code. -/
theorem finishes_of_generation (present : job.missing? = none)
    (needed : job.needs .codeGenerator = true) (clear : parsed.status.flagged = false)
    {generator : CodeGenerator}
    (shape : job.run = job.parsing >>= fun forest =>
      generating job.settings job.codePath generator forest analyzer) :
    job.Finishes start (after job.run start) := by
  have adds := analysis_adds proper parses analyzes done
  have files := analysis_files parses analyzes done
  have analyzed := analysis_eq analyzes done
  have passes : job.closes start .analysis = false := closes_of_clear done clear
  have before : job.atGate start .codeGeneration = last? job.analysis start := by
    simp [atGate, done, last?, clear, present, needed]
  have ran : job.run start = (analyze job.settings analyzer forest >>= fun checked =>
      gate .codeGeneration (some <$> generate job.settings generator job.codePath checked)) parsed := by
    rw [shape, bind_of_ok done]
    exact gate_of_clear .analysis clear
  cases analysis : job.analysis start with
  | error failure stopped =>
    have unreached : job.atGate start .codeGeneration = none := by rw [before, last?, analysis]
    rw [after_of_error analysis] at adds files
    rw [after_of_error (ran.trans (bind_of_error (analyzed ▸ analysis)))]
    exact finishes_of_silent passes (.inl unreached) adds files
  | ok checked last =>
    have reached : job.atGate start .codeGeneration = some last := by rw [before, last?, analysis]
    rw [after_of_ok analysis] at adds files
    have ran := ran.trans (bind_of_ok (analyzed ▸ analysis))
    cases flagged : last.status.flagged with
    | true =>
      have unopened : job.opened? start = none := by simp [opened?, reached, flagged]
      have closed : job.closes start .codeGeneration = true := by simp [closes, reached, flagged]
      rw [after_of_ok (ran.trans (gate_of_flagged .codeGeneration flagged))]
      exact finishes_of_unopened unopened (by simp [ending_eq, passes, closed, unopened]) adds files
    | false =>
      rw [gate_of_clear .codeGeneration flagged] at ran
      rw [after_congr ran, after_map]
      exact finishes_of_reached passes reached flagged adds files generator checked

end

/-- Every run ends at a gate, with the file of its code, or before it comes to either. -/
theorem finishes (proper : job.stages.Proper) (start : Workspace ρ) :
    job.Finishes start (after job.run start) := by
  cases present : job.missing? with
  | some stage =>
    rw [after_of_error (run_of_missing present start)]
    exact finishes_of_silent (by simp [closes, atGate, present]) (.inl (by simp [atGate, present]))
      (.refl _ _) rfl
  | none =>
    by_cases phase : job.settings.phase = .scan
    · exact finishes_of_scan present phase
    obtain ⟨plan, provides, run_eq⟩ := exists_plan present
    generalize phase_eq : job.settings.phase = named at provides phase
    have needs (stage : Stage) : job.needs stage = decide (stage ∈ named.needs) := by
      rw [Job.needs, phase_eq]
    cases provides with
    | scan => exact absurd rfl phase
    | @parse parser parses =>
      refine finishes_of_parse parses (proper.parser parser parses) ?_ (needs .analyzer)
        (needs .codeGenerator)
      rw [run_eq, parsing_eq parses]
      rfl
    | @analyze parser analyzer parses analyzes =>
      have shape : job.run = job.parsing >>= fun forest => analyzing job.settings forest analyzer := by
        rw [run_eq, parsing_eq parses]
        rfl
      refine finishes_of_gated parses (proper.parser parser parses) shape present (needs .analyzer) ?_
      intro forest parsed done clear
      exact finishes_of_analyzed proper parses analyzes done (needs .codeGenerator) clear shape
    | @generate parser analyzer generator parses analyzes =>
      have shape : job.run = job.parsing >>= fun forest =>
          generating job.settings job.codePath generator forest analyzer := by
        rw [run_eq, parsing_eq parses]
        rfl
      refine finishes_of_gated parses (proper.parser parser parses) shape present (needs .analyzer) ?_
      intro forest parsed done clear
      exact finishes_of_generation proper parses analyzes done present (needs .codeGenerator) clear
        shape

/-! ### What the end of a run tells -/

theorem mem_ending_skipping {activity : Activity} :
    .skipping activity ∈ job.ending start ↔ job.closes start activity = true := by
  cases activity <;> simp [ending_eq]

theorem mem_ending_generating {path : String} :
    .generating path ∈ job.ending start ↔
      path = job.codePath.text ∧ (job.opened? start).isSome = true := by
  cases opened : job.opened? start <;> simp [ending_eq, opened]

/-- Behind a closed gate there is no other. -/
theorem atGate_of_closes (closed : job.closes start .analysis = true) :
    job.atGate start .codeGeneration = none := by
  rw [closes, atGate] at closed
  rw [atGate]
  cases parsed : last? job.parsing start with
  | none => simp
  | some last =>
    have flagged : last.status.flagged = true := by grind
    simp [flagged]

/-- A run tells of one closed gate at most. -/
theorem length_about_gate_ending (job : Job ρ) (start : Workspace ρ) :
    (about .gate (job.ending start)).length ≤ 1 := by
  have code : about .gate ((job.opened? start).map fun _ => Entry.generating job.codePath.text).toList
      = [] := by
    cases job.opened? start <;> rfl
  rw [ending_eq, about_append, about_append, code]
  cases closed : job.closes start .analysis with
  | true =>
    have later : job.closes start .codeGeneration = false := by
      rw [closes, atGate_of_closes closed, Option.any_none]
    simp [later, about_cons, Entry.topic]
  | false => cases job.closes start .codeGeneration <;> simp [about_cons, Entry.topic]

namespace Finishes

variable {last : Workspace ρ} (finishes : job.Finishes start last) (fresh : start.journal = [])

include finishes fresh

/-- What a run tells of its gates and its code is told at its end. -/
theorem about_eq {topic : Topic} (late : topic ∉ beforeEnding) :
    about topic last.journal = about topic (job.ending start) := by
  obtain ⟨before, journal, adds⟩ := finishes.log
  rw [journal, about_append, adds.about_eq late, fresh, about_nil, List.nil_append]

theorem mem_iff {entry : Entry} (late : entry.topic ∉ beforeEnding) :
    entry ∈ last.journal ↔ entry ∈ job.ending start := by
  have told := finishes.about_eq fresh late
  have here := @mem_about_iff entry.topic entry last.journal
  rw [told, mem_about_iff] at here
  simpa using here.symm

end Finishes

end Job

end FrontEnd
