import FrontEnd.Proofs.Compilation.Gating
import FrontEnd.Proofs.Script.Proper

/-! # Series of runs

Runs can follow each other over one status and one tree of files. Every one of them is gated, and
what has raised the flag in one of them still counts in all that follow: of their stages only the
parser is called.
-/

namespace FrontEnd

open Run

variable {ρ : Type}

/-- A run of a series: what it is asked for, and the status and the files that it starts from. -/
structure Turn (ρ : Type) where
  job : Job ρ
  status : Status
  files : FileTree

namespace Turn

/-- Each run of a series writes into a listing of its own, which is never full. -/
def start (turn : Turn ρ) : Workspace ρ :=
  .start turn.status none turn.files

def last (turn : Turn ρ) : Workspace ρ :=
  after turn.job.run turn.start

end Turn

namespace Job

/-- The runs of a series of jobs. Each takes over the status and the files that the one before has
left behind. -/
def series (status : Status) (files : FileTree) : List (Job ρ) → List (Turn ρ)
  | [] => []
  | job :: rest =>
    let turn : Turn ρ := ⟨job, status, files⟩
    turn :: series turn.last.status turn.last.files rest

variable {status : Status} {files : FileTree} {jobs : List (Job ρ)}

theorem gated_of_mem_series (proper : ∀ job ∈ jobs, job.stages.Proper) :
    ∀ turn ∈ series status files jobs, turn.job.Gated turn.start := by
  induction jobs generalizing status files with
  | nil => exact fun _ => nofun
  | cons job rest ih =>
    obtain ⟨first, later⟩ := List.forall_mem_cons.mp proper
    exact List.forall_mem_cons.mpr ⟨gated first rfl, ih later⟩

/-- A flag that is up before a series is up at the start of each of its runs. -/
theorem flagged_of_mem_series (proper : ∀ job ∈ jobs, job.stages.Proper)
    (flagged : status.flagged = true) :
    ∀ turn ∈ series status files jobs, turn.status.flagged = true := by
  induction jobs generalizing status files with
  | nil => exact fun _ => nofun
  | cons job rest ih =>
    obtain ⟨first, later⟩ := List.forall_mem_cons.mp proper
    have gated : job.Gated (.start status none files) := gated first rfl
    exact List.forall_mem_cons.mpr ⟨flagged, ih later (gated.kept flagged)⟩

/-- Over any series of runs with proper stages the gates are exact: a run is refused for the first
stage that its phase needs and that is missing, or it calls just the stages that it reaches. Behind
a run that has left the flag up, runs are barren. -/
theorem series_gated (proper : ∀ job ∈ jobs, job.stages.Proper) :
    (∀ turn ∈ series status files jobs, turn.job.Gated turn.start) ∧
      (series status files jobs).Pairwise fun earlier later =>
        earlier.last.status.flagged = true →
          later.status.flagged = true ∧ later.job.Barren later.start := by
  refine ⟨gated_of_mem_series proper, ?_⟩
  induction jobs generalizing status files with
  | nil => exact .nil
  | cons job rest ih =>
    obtain ⟨-, proper⟩ := List.forall_mem_cons.mp proper
    refine List.pairwise_cons.mpr ⟨fun turn member flagged => ?_, ih proper⟩
    have flagged := flagged_of_mem_series proper flagged turn member
    exact ⟨flagged, (gated_of_mem_series proper turn member).barren flagged⟩

/-- Stages whose analyzer flags an error in its first pass. -/
def flaggingScripts : Script.StageScripts :=
  ⟨some (.steps [.pull, .pull]), some ⟨some .symbols, none, none⟩, some false⟩

/-- A job up to the code of a source, in which the analyzer flags an error. -/
def flaggingJob : Job Script.ParserAnswer :=
  ⟨flaggingScripts.stages, { phase := .generate }, "x", ⟨"x.tm".toList⟩⟩

theorem series_gated_flaggingJob :
    let jobs := List.replicate 2 flaggingJob
    (∀ job ∈ jobs, job.stages.Proper) ∧
      ∀ turn ∈ series {} (.scratch ["work"]) jobs, turn.job.Gated turn.start := by
  intro jobs
  have proper : ∀ job ∈ jobs, job.stages.Proper := by
    intro job member
    rw [List.eq_of_mem_replicate member]
    exact flaggingScripts.proper
  exact ⟨proper, (series_gated proper).1⟩

/-- The first time types are checked but no code is generated, the second time there is only
parsing. -/
example : (series {} (.scratch ["work"]) (List.replicate 2 flaggingJob)).map
    (fun turn => turn.last.calls) = [[.parse, .buildSymbols, .checkTypes], [.parse]] := by
  decide +kernel

end Job

end FrontEnd
