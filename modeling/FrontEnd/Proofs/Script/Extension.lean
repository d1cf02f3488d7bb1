import FrontEnd.Proofs.Compilation.Extension
import FrontEnd.Proofs.Script.Proper

/-! # Scripted runs up to different phases

Whatever the stages are that scripts ask for, runs that differ only in their last phase start alike,
and a later phase goes on where an earlier one ends.
-/

namespace FrontEnd.Script

open Run

/-- With a listing that is never full, what the run up to the parse phase writes is how the run up to
the analysis begins, and the run up to the generation of code writes what that one writes. All three
report what the parser reports. If the flag is up when parsing is over, the later phases yield no
code, and nothing but their journal tells them from the parse phase. -/
theorem StageScripts.later_phases (parser : ParserScript) (analyzer : AnalyzerScript)
    (generatorFails : Bool) (settings : Settings) (source : String) (codePath : Path)
    (status : Status) (files : FileTree) :
    let scripts : StageScripts := ⟨some parser, some analyzer, some generatorFails⟩
    let run := fun phase => ofStages scripts.stages { settings with phase } source codePath
    Extends run (.start status none files) :=
  extends_ofStages (listingGenerator generatorFails) parser.proper analyzer.blind.steady settings
    source codePath rfl

/-- Where memory runs out, the listings are the same. Where it does not, analysis goes on. -/
example :
    let sizes := fun steps => [Phase.parse, .analyze, .generate].map fun phase =>
      let stages := StageScripts.stages ⟨some (.steps steps), some ⟨none, none, none⟩, some false⟩
      (after (ofStages stages { phase } "x" (.ofText "x")) (.start {} none (.scratch ["work"]))
        ).listing.content.size
    sizes [.pull, .fail] = [91, 91, 91] ∧ sizes [.pull] = [61, 71, 71] := by
  decide +kernel

end FrontEnd.Script
