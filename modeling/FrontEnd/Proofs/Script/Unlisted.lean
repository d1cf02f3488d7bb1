import FrontEnd.Proofs.Compilation.Unlisted
import FrontEnd.Proofs.Script.Uniform

/-! # Scripted runs under different trace switches

Whatever the stages are that scripts ask for, echoing the source and tracing tokens, tree and
progress leave no mark outside the listing.
-/

namespace FrontEnd.Script

open Run

/-- With a listing that is never full, the switches for what is listed change nothing but the
listing: a run has the same result, and leaves behind the same status, the same files with the same
bytes, and the same reports, stage calls and journal. -/
theorem StageScripts.run_of_switches (scripts : StageScripts) (settings : Settings)
    (echoSource traceScan traceParse traceAnalyze : Bool) (source : String) (codePath : Path)
    (status : Status) (files : FileTree) :
    let run := fun settings =>
      ofStages scripts.stages settings source codePath (.start status none files)
    unlisted (run { settings with echoSource, traceScan, traceParse, traceAnalyze }) =
      unlisted (run settings) := by
  intro run
  let switched := { settings with echoSource, traceScan, traceParse, traceAnalyze }
  have phase : switched.phase = settings.phase := rfl
  have code : switched.traceCode = settings.traceCode := rfl
  have agrees := agrees_ofStages phase code source codePath scripts.uniform_of_mem
    scripts.blind_of_mem
  exact (agrees _ _ (.refl rfl)).unlisted_eq

end FrontEnd.Script
