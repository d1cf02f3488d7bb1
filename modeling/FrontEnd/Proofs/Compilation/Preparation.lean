import FrontEnd.Proofs.Compilation.Gating
import FrontEnd.Proofs.Compilation.Limited
import FrontEnd.Proofs.FileTree.Companion

/-! # The preparation of code

All that a run does before it generates code is made of small steps that leave the files alone. What
holds of every step, and is kept by sequencing, holds of the phases and of the run up to its code.
A run is its preparation, and then the generation of what was drafted, if there is anything.
-/

namespace FrontEnd

variable {ρ α β : Type}

namespace Run

/-- Work of a run with certain stages that has nothing to do with files. -/
inductive Preparation (stages : Stages ρ) : {α : Type} → Run ρ α → Prop where
  | pure {α : Type} (value : α) : Preparation stages (pure value)
  | note (entry : Journal.Entry) : Preparation stages (note entry)
  | call (stage : StageCall) : Preparation stages (call stage)
  | flag : Preparation stages flag
  | write (text : String) : Preparation stages (write text)
  | drain (settings : Settings) (source : String) :
    Preparation stages (transcribe settings source (.draining ρ))
  | transcribe (settings : Settings) (source : String) {parser : Parser ρ}
    (parses : stages.parser = some parser) :
    Preparation stages (transcribe settings source parser)
  | symbols {analyzer : Analyzer} (analyzes : stages.analyzer = some analyzer) (forest : Forest) :
    Preparation stages (onDesk (analyzer.buildSymbols forest))
  | types {analyzer : Analyzer} (analyzes : stages.analyzer = some analyzer) (forest : Forest) :
    Preparation stages (onDesk (analyzer.checkTypes forest))
  | status {α : Type} {work : Status → Run ρ α} :
    (∀ status, Preparation stages (work status)) →
      Preparation stages (do work (← get).status)
  | bind {α β : Type} {work : Run ρ α} {later : α → Run ρ β} :
    Preparation stages work → (∀ value, Preparation stages (later value)) →
      Preparation stages (work >>= later)

namespace Preparation

variable {stages : Stages ρ}

theorem writeWhen (wanted : Bool) (text : String) :
    Preparation stages (Run.writeWhen wanted text) := by
  cases wanted with
  | false => exact .pure ()
  | true => exact .write text

theorem accept (result : Except OutOfMemory Forest) :
    Preparation stages (Run.accept result) := by
  cases result with
  | ok forest => exact (note _).bind fun _ => .pure forest
  | error failure =>
    exact (note _).bind fun _ => (write _).bind fun _ => flag.bind fun _ => .pure Forest.empty

theorem parse (settings : Settings) (source : String) {parser : Parser ρ}
    (parses : stages.parser = some parser) :
    Preparation stages (Run.parse settings source parser) := by
  rw [parse_eq]
  apply (note _).bind
  intro _
  apply (call .parse).bind
  intro _
  apply (transcribe settings source parses).bind
  intro result
  apply (accept result).bind
  intro forest
  exact (writeWhen _ _).bind fun _ => .pure forest

theorem scan (settings : Settings) (source : String) :
    Preparation stages (Run.scan settings source) := by
  rw [scan_eq]
  apply (writeWhen _ _).bind
  intro _
  apply (drain settings source).bind
  intro _
  exact .status fun status => .note (.scannedTo status.line)

theorem analyze (settings : Settings) {analyzer : Analyzer}
    (analyzes : stages.analyzer = some analyzer) (forest : Forest) :
    Preparation stages (Run.analyze settings analyzer forest) := by
  unfold Run.analyze
  simp only [atDesk_eq]
  apply (writeWhen _ _).bind
  intro _
  apply ((call .buildSymbols).bind fun _ => symbols analyzes forest).bind
  intro _
  apply (writeWhen _ _).bind
  intro _
  apply ((call .checkTypes).bind fun _ => types analyzes forest).bind
  intro checked
  exact (writeWhen _ _).bind fun _ => .pure checked

theorem skips (activity : Journal.Activity) : Preparation stages (Run.skips activity) := by
  unfold Run.skips
  apply @Preparation.status _ stages _ fun status => if status.flagged then (do
    Run.note (.skipping activity)
    Pure.pure true) else Pure.pure false
  intro status
  split
  · exact (note _).bind fun _ => .pure true
  · exact .pure false

theorem keeps_files {work : Run ρ α} (prepared : Preparation stages work) :
    Keeps Workspace.files work := by
  have atDesk {α : Type} (work : EStateM Fault Desk α) :
      Keeps Workspace.files (onDesk work : Run ρ α) := by
    intro workspace
    rw [after, onDesk]
    cases work ⟨workspace.status, workspace.listing, workspace.journal⟩ <;> rfl
  induction prepared with
  | pure | note | call | flag => exact fun _ => rfl
  | write text =>
    intro workspace
    rw [after, Run.write]
    cases workspace.listing.fits text <;> rfl
  | drain settings source => exact files_transcribe settings source _
  | transcribe settings source => exact files_transcribe settings source _
  | symbols _ forest => exact atDesk _
  | types _ forest => exact atDesk _
  | status _ ih => exact fun workspace => ih workspace.status workspace
  | bind _ _ first later => exact first.bind later

/-- The one failure of a preparation is that the listing could not be written. -/
theorem failure {work : Run ρ α} (prepared : Preparation stages work)
    {workspace last : Workspace ρ} {failure : Failure}
    (stopped : work workspace = .error failure last) :
    ∃ fault, failure = .listingNotWritten fault := by
  have transcribed (settings : Settings) (source : String) (parser : Parser ρ)
      {workspace : Workspace ρ}
      (stopped : Run.transcribe settings source parser workspace = .error failure last) :
      ∃ fault, failure = .listingNotWritten fault := by
    rw [Run.transcribe] at stopped
    split at stopped
    · cases stopped
    · cases stopped
      exact ⟨_, rfl⟩
  have atDesk {α : Type} (work : EStateM Fault Desk α) {workspace : Workspace ρ}
      (stopped : (onDesk work : Run ρ α) workspace = .error failure last) :
      ∃ fault, failure = .listingNotWritten fault := by
    simp only [onDesk] at stopped
    split at stopped
    · cases stopped
    · cases stopped
      exact ⟨_, rfl⟩
  induction prepared generalizing workspace with
  | pure | note | call | flag => cases stopped
  | write text =>
    simp only [Run.write] at stopped
    split at stopped
    · cases stopped
    · cases stopped
      exact ⟨_, rfl⟩
  | drain settings source => exact transcribed settings source _ stopped
  | transcribe settings source => exact transcribed settings source _ stopped
  | symbols _ forest => exact atDesk _ stopped
  | types _ forest => exact atDesk _ stopped
  | status _ ih => exact ih workspace.status stopped
  | @bind _ _ work later _ _ first second =>
    cases ran : work workspace with
    | ok value middle =>
      rw [bind_of_ok ran] at stopped
      exact second value stopped
    | error other middle =>
      rw [bind_of_error ran] at stopped
      cases stopped
      exact first ran

end Preparation

/-! ## Runs up to their code -/

/-- A run up to the generation of code, yielding what is to generate it of which forest. -/
def draft (settings : Settings) (source : String) :
    Plan ρ → Run ρ (Option (CodeGenerator × Forest))
  | .scan => do
    scan settings source
    pure none
  | .parse parser => do
    let _ ← parse settings source parser
    pure none
  | .analyze parser analyzer => do
    let forest ← parse settings source parser
    if ← skips .analysis then pure none
    else
      let _ ← analyze settings analyzer forest
      pure none
  | .generate parser analyzer generator => do
    let forest ← parse settings source parser
    if ← skips .analysis then pure none
    else
      let checked ← analyze settings analyzer forest
      if ← skips .codeGeneration then pure none
      else pure (some (generator, checked))

/-- The generation of the code that was drafted, if any was. -/
def issue (settings : Settings) (codePath : Path) :
    Option (CodeGenerator × Forest) → Run ρ (Option Path)
  | none => pure none
  | some (generator, checked) => some <$> generate settings generator codePath checked

theorem ofPlan_eq (settings : Settings) (source : String) (codePath : Path) (plan : Plan ρ) :
    ofPlan settings source codePath plan = draft settings source plan >>= issue settings codePath := by
  cases plan with
  | scan => simp only [ofPlan, draft, bind_assoc, pure_bind, issue]
  | parse parser => simp only [ofPlan, draft, bind_assoc, pure_bind, issue]
  | analyze parser analyzer =>
    simp only [ofPlan, draft, bind_assoc]
    refine bind_congr fun _ => bind_congr fun skipped => ?_
    cases skipped with
    | true => rfl
    | false => simp only [Bool.false_eq_true, ↓reduceIte, bind_assoc, pure_bind, issue]
  | generate parser analyzer generator =>
    simp only [ofPlan, draft, bind_assoc]
    refine bind_congr fun _ => bind_congr fun skipped => ?_
    cases skipped with
    | true => rfl
    | false =>
      simp only [Bool.false_eq_true, ↓reduceIte, bind_assoc]
      refine bind_congr fun _ => bind_congr fun skipped => ?_
      cases skipped <;> rfl

theorem Preparation.draft {stages : Stages ρ} {phase : Phase} {plan : Plan ρ}
    (provides : stages.Provides phase plan) (settings : Settings) (source : String) :
    Preparation stages (Run.draft settings source plan) := by
  cases provides with
  | scan => exact (scan settings source).bind fun _ => .pure none
  | parse parses => exact (parse settings source parses).bind fun _ => .pure none
  | analyze parses analyzes =>
    apply (parse settings source parses).bind
    intro forest
    apply (skips .analysis).bind
    intro skipped
    cases skipped with
    | true => exact .pure none
    | false => exact (analyze settings analyzes forest).bind fun _ => .pure none
  | generate parses analyzes =>
    apply (parse settings source parses).bind
    intro forest
    apply (skips .analysis).bind
    intro skipped
    cases skipped with
    | true => exact .pure none
    | false =>
      apply (analyze settings analyzes forest).bind
      intro checked
      apply (skips .codeGeneration).bind
      intro skipped
      cases skipped <;> exact .pure _

/-- What came to its end in a sequence came through its first part. -/
theorem ok_of_bind {work : Run ρ α} {later : α → Run ρ β} {workspace last : Workspace ρ} {value : β}
    (done : (work >>= later) workspace = .ok value last) :
    ∃ first middle, work workspace = .ok first middle ∧ later first middle = .ok value last := by
  cases ran : work workspace with
  | ok first middle =>
    rw [bind_of_ok ran] at done
    exact ⟨first, middle, rfl, done⟩
  | error failure middle =>
    rw [bind_of_error ran] at done
    cases done

/-- What is not skipped finds the flag down. -/
theorem clear_of_skips {activity : Journal.Activity} {workspace last : Workspace ρ}
    (opened : skips activity workspace = .ok false last) :
    workspace.status.flagged = false ∧ last = workspace := by
  obtain ⟨⟨line, flagged⟩, _, _, _, _, _⟩ := workspace
  cases flagged with
  | true => cases opened
  | false =>
    cases opened
    exact ⟨rfl, rfl⟩

end Run

namespace Job

open Run

/-- A run that comes to the generation of code: all phases are asked for, and neither parsing nor
the analysis has failed or left the flag up. -/
structure Drafts (job : Job ρ) (start : Workspace ρ) (generator : CodeGenerator) (checked : Forest)
    (last : Workspace ρ) : Prop where
  phase : job.settings.phase = .generate
  generates : job.stages.codeGenerator = some generator
  parsed : flags job.parsing start = false
  analyzed : job.analysis start = .ok checked last
  clear : last.status.flagged = false

variable {job : Job ρ} {start last : Workspace ρ}

theorem drafts_of_draft {plan : Plan ρ} (provides : job.stages.Provides job.settings.phase plan)
    {generator : CodeGenerator} {checked : Forest}
    (drafted : draft job.settings job.source plan start = .ok (some (generator, checked)) last) :
    job.Drafts start generator checked last := by
  -- Only the last phase drafts anything, and only once both gates were open.
  cases phase : job.settings.phase with
  | scan =>
    rw [phase] at provides
    cases provides
    obtain ⟨_, _, _, none⟩ := ok_of_bind drafted
    cases none
  | parse =>
    rw [phase] at provides
    cases provides
    obtain ⟨_, _, _, none⟩ := ok_of_bind drafted
    cases none
  | analyze =>
    rw [phase] at provides
    cases provides
    obtain ⟨_, _, _, gate⟩ := ok_of_bind drafted
    obtain ⟨skipped, _, _, beyond⟩ := ok_of_bind gate
    cases skipped with
    | true => cases beyond
    | false =>
      change (analyze job.settings _ _ >>= _) _ = _ at beyond
      obtain ⟨_, _, _, none⟩ := ok_of_bind beyond
      cases none
  | generate =>
    rw [phase] at provides
    cases provides with | generate parses analyzes generates =>
    obtain ⟨forest, parsed, parsing, gate⟩ := ok_of_bind drafted
    obtain ⟨skipped, middle, opened, beyond⟩ := ok_of_bind gate
    cases skipped with
    | true => cases beyond
    | false =>
      obtain ⟨unflagged, rfl⟩ := clear_of_skips opened
      change (analyze job.settings _ forest >>= _) middle = _ at beyond
      obtain ⟨_, analyzed, analysis, gate'⟩ := ok_of_bind beyond
      obtain ⟨skipped, _, opened', beyond'⟩ := ok_of_bind gate'
      cases skipped with
      | true => cases beyond'
      | false =>
        obtain ⟨clear, rfl⟩ := clear_of_skips opened'
        cases beyond'
        rw [← parsing_eq parses] at parsing
        refine ⟨phase, generates, ?_, ?_, clear⟩
        · rw [flags, after_of_ok parsing]
          exact unflagged
        · rw [Job.analysis, bind_of_ok parsing, analyzes]
          exact analysis

theorem draft_of_drafts {plan : Plan ρ} (provides : job.stages.Provides job.settings.phase plan)
    {generator : CodeGenerator} {checked : Forest} (drafts : job.Drafts start generator checked last) :
    draft job.settings job.source plan start = .ok (some (generator, checked)) last := by
  rw [drafts.phase] at provides
  cases provides with | generate parses analyzes generates =>
  cases drafts.generates.symm.trans generates
  obtain ⟨forest, middle, parsing, analysis⟩ := ok_of_bind drafts.analyzed
  have unflagged : middle.status.flagged = false := by
    rw [← after_of_ok parsing]
    exact drafts.parsed
  rw [analyzes] at analysis
  rw [parsing_eq parses] at parsing
  rw [draft, bind_of_ok parsing, bind_of_ok (skips_of_clear .analysis unflagged)]
  change (analyze job.settings _ forest >>= _) middle = _
  rw [bind_of_ok analysis, bind_of_ok (skips_of_clear .codeGeneration drafts.clear)]
  rfl

/-- A run drafts one code at most. -/
theorem Drafts.unique {generator other : CodeGenerator} {checked checked' : Forest}
    {last' : Workspace ρ} (drafts : job.Drafts start generator checked last)
    (drafts' : job.Drafts start other checked' last') : other = generator ∧ checked' = checked := by
  cases drafts.generates.symm.trans drafts'.generates
  cases drafts.analyzed.symm.trans drafts'.analyzed
  exact ⟨rfl, rfl⟩

/-- How a run ends whose stages are there, and what it has done to the files. -/
inductive Ends (job : Job ρ) (start : Workspace ρ) :
    EStateM.Result Failure (Workspace ρ) (Option Path) → Prop where
  | uncoded {last : Workspace ρ} (files : last.files = start.files)
    (undrafted : ∀ generator checked last, ¬job.Drafts start generator checked last) :
    Ends job start (.ok none last)
  | unlisted {last : Workspace ρ} (fault : Fault) (files : last.files = start.files)
    (undrafted : ∀ generator checked last, ¬job.Drafts start generator checked last) :
    Ends job start (.error (.listingNotWritten fault) last)
  | uncreated {generator checked fault last} (drafts : job.Drafts start generator checked last)
    (files : last.files = start.files)
    (refused : start.files.creationSite job.codePath = .error fault) :
    Ends job start (.error (.codeNotCreated job.codePath fault) last)
  | unwritten {generator checked drafted fault place last}
    (drafts : job.Drafts start generator checked drafted)
    (site : start.files.creationSite job.codePath = .ok place)
    (apart : start.files.SameBut place last.files)
    (stopped : (generator.generate checked job.codePath job.settings.traceCode).fault = some fault)
    (written : last.files.lookup? place = some (.file
      (generator.generate checked job.codePath job.settings.traceCode).text.toUTF8)) :
    Ends job start (.error (.codeNotWritten job.codePath fault) last)
  | coded {generator checked drafted place last}
    (drafts : job.Drafts start generator checked drafted)
    (site : start.files.creationSite job.codePath = .ok place)
    (apart : start.files.SameBut place last.files)
    (written : last.files.lookup? place = some (.file
      (generator.generate checked job.codePath job.settings.traceCode).text.toUTF8)) :
    Ends job start (.ok (some job.codePath) last)

/-- What was drafted is written into the file of the code, if that can be created. -/
theorem ends_of_drafts {generator : CodeGenerator} {checked : Forest}
    (drafts : job.Drafts start generator checked last) (files : last.files = start.files) :
    job.Ends start (issue job.settings job.codePath (some (generator, checked)) last) := by
  have issued : issue job.settings job.codePath (some (generator, checked)) last =
      EStateM.map some (generate job.settings generator job.codePath checked) last := rfl
  rw [issued, EStateM.map, generate_apply, FileTree.create]
  cases site : last.files.creationSite job.codePath with
  | error fault => exact .uncreated drafts files (files ▸ site)
  | ok place =>
    have below := FileTree.creationSite_ne_nil site
    have apart (content : ByteArray) : start.files.SameBut place
        ((last.files.put place (.file .empty)).put place (.file content)) := by
      rw [files]
      exact (FileTree.SameBut.put _ below _).trans (FileTree.SameBut.put _ below _)
    have written (content : ByteArray) :
        ((last.files.put place (.file .empty)).put place (.file content)).lookup? place =
          some (.file content) := by
      rw [FileTree.lookup?_put _ _ _ _ below, if_pos rfl]
    rw [files] at site
    dsimp only [Except.map]
    cases stopped : (generator.generate checked job.codePath job.settings.traceCode).fault with
    | none => exact .coded drafts site (apart _) (written _)
    | some fault => exact .unwritten drafts site (apart _) stopped (written _)

/-- Every run whose stages are there ends in one of these ways. -/
theorem ends (present : job.missing? = none) (start : Workspace ρ) :
    job.Ends start (job.run start) := by
  obtain ⟨plan, provides, run_eq⟩ := exists_plan present
  rw [run_eq, ofPlan_eq]
  have prepared := Preparation.draft provides job.settings job.source
  have files := prepared.keeps_files start
  cases drafted : draft job.settings job.source plan start with
  | error failure last =>
    rw [after_of_error drafted] at files
    obtain ⟨fault, rfl⟩ := prepared.failure drafted
    rw [bind_of_error drafted]
    refine .unlisted fault files fun generator checked other drafts => ?_
    cases drafted.symm.trans (draft_of_drafts provides drafts)
  | ok code last =>
    rw [after_of_ok drafted] at files
    rw [bind_of_ok drafted]
    cases code with
    | none =>
      refine .uncoded files fun generator checked other drafts => ?_
      cases drafted.symm.trans (draft_of_drafts provides drafts)
    | some code => exact ends_of_drafts (drafts_of_draft provides drafted) files

/-- Code that is generated without a fault is in its file at the end, and nothing else has changed. -/
theorem Drafts.coded {generator : CodeGenerator} {checked : Forest} {text : String}
    {location : Location} (drafts : job.Drafts start generator checked last)
    (present : job.missing? = none) (site : start.files.creationSite job.codePath = .ok location)
    (generated : generator.generate checked job.codePath job.settings.traceCode = ⟨text, none⟩) :
    ∃ last, job.run start = .ok (some job.codePath) last ∧
      start.files.SameBut location last.files ∧
      last.files.lookup? location = some (.file text.toUTF8) := by
  have ended := ends present start
  generalize job.run start = result at ended
  -- What was drafted goes into the file, which leaves one way for the run to end.
  cases ended with
  | uncoded _ undrafted | unlisted _ _ undrafted => exact absurd drafts (undrafted _ _ _)
  | uncreated _ _ refused => cases refused.symm.trans site
  | unwritten drafts' _ _ stopped =>
    obtain ⟨rfl, rfl⟩ := drafts.unique drafts'
    rw [generated] at stopped
    cases stopped
  | coded drafts' site' apart written =>
    obtain ⟨rfl, rfl⟩ := drafts.unique drafts'
    cases site'.symm.trans site
    rw [generated] at written
    exact ⟨_, rfl, apart, written⟩

end Job

end FrontEnd
