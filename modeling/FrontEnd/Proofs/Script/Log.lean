import FrontEnd.Proofs.Compilation.Ending
import FrontEnd.Proofs.Script.Proper

/-! # The log of a run

What a run has logged can be relied on: each entry that says that something has happened is there if
that has happened, and only then. This holds of every run of proper stages with a uniform parser,
and so of those that scripts ask for.
-/

namespace FrontEnd

open Journal Run

variable {ρ : Type}

def Workspace.unlimited (workspace : Workspace ρ) : Workspace ρ :=
  { workspace with listing := { workspace.listing with limit := none } }

namespace Job

def log (job : Job ρ) (start : Workspace ρ) : List Entry :=
  (after job.run start).journal

/-- A log that tells what has happened in a run, and nothing else. -/
structure Faithful (job : Job ρ) (start : Workspace ρ) : Prop where
  /-- The faults that are told of are those among the tokens that are taken, in order. -/
  faults : about .faults (job.log start) = Taking.reports (job.takings start)
  /-- The flag is told of once if the run has raised it, and never if not. -/
  flag : (about .flag (job.log start)).length =
    if start.status.flagged = false ∧ (after job.run start).status.flagged = true then 1 else 0
  /-- A fault that raises the flag is told of, and directly behind it that the flag is up. -/
  raised (earlier later taking) : job.takings start = earlier ++ taking :: later →
    taking.isFault = true → taking.flagged = false →
    ∃ before behind,
      job.log start = before ++ taking.report :: .flagRaised taking.token.line :: behind ∧
        about .faults before = Taking.reports earlier
  /-- The transcript is told to have stopped if the first write that fails is one of its own. -/
  stopped : (∃ fault, .transcriptStopped fault ∈ job.log start) ↔
    ∃ limit, start.listing.limit = some limit ∧ job.Overflows start.unlimited limit
  stopped_once : (about .transcript (job.log start)).length ≤ 1
  /-- No parser has both come to a forest and run out of memory. -/
  verdict (size failure) : .parsed size ∈ job.log start → .parsingAbandoned failure ∉ job.log start
  /-- An activity is told to be skipped if the run comes to its gate with the flag up. -/
  skipped (activity) : .skipping activity ∈ job.log start ↔
    ∃ before, job.atGate start activity = some before ∧ before.status.flagged = true
  skipped_once : (about .gate (job.log start)).length ≤ 1
  /-- The code is told of if its file is opened. -/
  code (path) : .generating path ∈ job.log start ↔
    path = job.codePath.text ∧ (job.opened? start).isSome = true
  /-- A run that opens no file leaves all files as they are. -/
  unopened : job.opened? start = none → (after job.run start).files = start.files
  /-- A file that is opened is there at the end, and no other has changed. -/
  opened (location created) : job.opened? start = some (location, created) →
    ∃ text, (after job.run start).files = created.put location (.file text)

variable {job : Job ρ}

/-- A transcript is told to have stopped if a fault was left behind. -/
theorem stopped_iff (proper : job.stages.Proper) (start : Workspace ρ)
    (fresh : start.journal = []) :
    (∃ fault, .transcriptStopped fault ∈ job.log start) ↔
      (job.transcriptFault? start).isSome = true := by
  have count := transcript_told proper fresh
  have topical (entry : Entry) : entry ∈ about .transcript (job.log start) ↔
      entry ∈ job.log start ∧ ∃ fault, entry = .transcriptStopped fault := by
    rw [mem_about_iff]
    cases entry <;> simp [Entry.topic]
  cases broken : job.transcriptFault? start with
  | none =>
    rw [broken] at count
    have silent : about .transcript (job.log start) = [] := List.length_eq_zero_iff.mp count
    simp only [silent, List.not_mem_nil, false_iff, not_and, not_exists] at topical
    simp only [Option.isSome_none, Bool.false_eq_true, iff_false, not_exists]
    exact fun fault told => topical _ told fault rfl
  | some fault =>
    rw [broken] at count
    obtain ⟨entry, told⟩ := List.exists_mem_of_length_pos (by rw [count]; exact Nat.one_pos)
    obtain ⟨logged, fault, rfl⟩ := (topical entry).mp told
    simpa using ⟨fault, logged⟩

/-- A limit breaks a transcript if the transcript overflows it first. -/
theorem isSome_transcriptFault? (uniform : ∀ parser ∈ job.stages.parser, parser.Uniform)
    (status : Status) (limit : Option Nat) (files : FileTree) :
    let start : Workspace ρ := .start status limit files
    (job.transcriptFault? start).isSome = true ↔
      ∃ limit, start.listing.limit = some limit ∧ job.Overflows start.unlimited limit := by
  intro start
  have free : (Workspace.start status none files : Workspace ρ).listing.limit = none := rfl
  cases limit with
  | none => simp [start, transcriptFault?_unlimited free uniform, free]
  | some limit =>
    have within : (Workspace.start status none files : Workspace ρ).listing.Within limit :=
      Nat.zero_le limit
    have broken := isSome_transcriptFault?_capped free uniform within
    rw [Workspace.capped_start] at broken
    rw [broken]
    exact ⟨fun overflows => ⟨limit, rfl, overflows⟩, fun ⟨_, rfl, overflows⟩ => overflows⟩

/-- The log of every run is faithful. -/
theorem faithful (proper : job.stages.Proper)
    (uniform : ∀ parser ∈ job.stages.parser, parser.Uniform) (status : Status) (limit : Option Nat)
    (files : FileTree) : job.Faithful (.start status limit files) := by
  generalize start_eq : (Workspace.start status limit files : Workspace ρ) = start
  have fresh : start.journal = [] := by rw [← start_eq]; rfl
  have follows := follows_log proper uniform fresh
  have ended := finishes proper start
  constructor
  case faults => exact follows.about_faults
  case flag =>
    have balanced := flag_balanced proper start
    rw [flagBalance, flagBalance, fresh] at balanced
    exact (length_about_of_balance balanced).1
  case raised => exact fun earlier later taking => follows.raised
  case stopped =>
    rw [stopped_iff proper start fresh, ← start_eq]
    exact isSome_transcriptFault? uniform status limit files
  case stopped_once =>
    rw [log, transcript_told proper fresh]
    exact Bool.toNat_le _
  case verdict =>
    intro size failure parsed abandoned
    have same := eq_of_length_about_le_one (verdict_told proper fresh)
      (mem_about_iff.mpr ⟨parsed, rfl⟩) (mem_about_iff.mpr ⟨abandoned, rfl⟩)
    cases same
  case skipped =>
    intro activity
    rw [log, ended.mem_iff fresh (by simp [Entry.topic, beforeEnding]), mem_ending_skipping, closes,
      Option.any_eq_true]
  case skipped_once =>
    rw [log, ended.about_eq fresh (by decide)]
    exact length_about_gate_ending job start
  case code =>
    intro path
    rw [log, ended.mem_iff fresh (by simp [Entry.topic, beforeEnding]), mem_ending_generating]
  case unopened => exact ended.unopened
  case opened => exact ended.opened

end Job

namespace Script

example :
    let stages := StageScripts.stages ⟨some (.steps [.drain]), none, none⟩
    (⟨stages, { phase := .parse }, "!", .ofText "x"⟩ : Job ParserAnswer).log
        (.start {} (some 5) (.scratch ["work"])) =
      [.parsing, .lexicalError "!" 1, .flagRaised 1, .transcriptStopped .listingFull] := by
  decide +kernel

end Script

end FrontEnd
