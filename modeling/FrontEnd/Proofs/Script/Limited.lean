import FrontEnd.Proofs.Compilation.Limited
import FrontEnd.Proofs.Compilation.Plan
import FrontEnd.Proofs.Script.Uniform

/-! # Scripted runs under a limit

Whatever the stages are that scripts ask for, a limit on the listing changes nothing if all that a
run writes fits. Otherwise the run stops with the first bytes of it in its listing, with what the
parser reports anyway, and with the files as they were.
-/

namespace FrontEnd.Script

open Run

theorem orderly_plan (scripts : StageScripts) (phase : Phase) {plan : Plan ParserAnswer}
    (planned : scripts.stages.plan phase = .ok plan) : Orderly plan := by
  have uniform := scripts.uniform_of_mem
  have blind := scripts.blind_of_mem
  cases Stages.provides_of_plan planned with
  | scan => trivial
  | parse parses => exact uniform _ parses
  | analyze parses analyzes => exact ⟨uniform _ parses, (blind _ analyzes).steady⟩
  | generate parses analyzes => exact ⟨uniform _ parses, (blind _ analyzes).steady⟩

/-- A scripted run is cut cleanly by a limit on its listing. -/
theorem cuts_ofStages (scripts : StageScripts) (settings : Settings) (source : String)
    (codePath : Path) : Cuts (ofStages scripts.stages settings source codePath) := by
  unfold ofStages
  cases planned : scripts.stages.plan settings.phase with
  | error stage => exact (steady_throw _).cuts
  | ok plan => exact cuts_ofPlan settings source codePath (orderly_plan scripts _ planned)

/-- Under a limit a run is the one without, if everything fits. If not, it fails with a full listing
that holds the first bytes, it has reported the same, and no file was created or changed. -/
theorem StageScripts.run_under_limit (scripts : StageScripts) (settings : Settings)
    (source : String) (codePath : Path) (status : Status) (files : FileTree) (limit : Nat) :
    let run := ofStages scripts.stages settings source codePath
    let free := run (.start status none files)
    let limited := run (.start status (some limit) files)
    let whole := after run (.start status none files)
    if whole.listing.content.size ≤ limit then
      limited = mapLast (fun last =>
        { last with listing := { last.listing with limit := some limit } }) free
    else
      ∃ stopped, limited = .error (.listingNotWritten .listingFull) stopped ∧
        stopped.listing.content = whole.listing.content.extract 0 limit ∧
        stopped.reports = whole.reports ∧ stopped.files = files := by
  intro run free limited whole
  have cuts := cuts_ofStages scripts settings source codePath (.start status none files) rfl
  have uncut := cuts.whole limit
  have short := cuts.short limit
  rw [Workspace.capped_start] at uncut short
  split
  · next within =>
    have ran : limited = mapLast (Workspace.capped limit) free := uncut within
    rw [ran]
    exact mapLast_congr (Workspace.capped_of_within within)
  · next full =>
    obtain ⟨stopped, ran, stops⟩ := short (Nat.zero_le limit) full
    refine ⟨stopped, ran, ?_, stops.reports, stops.files⟩
    rw [stops.listing]
    rfl

end FrontEnd.Script
