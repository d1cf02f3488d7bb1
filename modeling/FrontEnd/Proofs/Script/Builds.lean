import FrontEnd.Proofs.Compilation.Refinement
import FrontEnd.Proofs.Script.Uniform

/-! # Builds with scripted stages

Whatever the stages are that scripts ask for, a build is a run on a fresh status. So when programs
are built one after another, each build depends on the files that the one before has left behind,
and on nothing else.
-/

namespace FrontEnd

namespace Build

variable {ρ : Type}

/-- The builds of programs one after another, each on the files that the one before has left. -/
def series (stages : Stages ρ) (settings : Settings) : FileTree → List String → List (Build ρ)
  | _, [] => []
  | files, program :: later =>
    let build := ofProgram stages settings program files
    build :: series stages settings build.files later

def filesAfter (stages : Stages ρ) (settings : Settings) : FileTree → List String → FileTree
  | files, [] => files
  | files, program :: later =>
    filesAfter stages settings (ofProgram stages settings program files).files later

/-- Builds go on from the files that the earlier ones have left. -/
theorem series_append (stages : Stages ρ) (settings : Settings) (files : FileTree)
    (earlier later : List String) :
    series stages settings files (earlier ++ later) =
      series stages settings files earlier ++
        series stages settings (filesAfter stages settings files earlier) later := by
  induction earlier generalizing files with
  | nil => rfl
  | cons program rest ih => exact congrArg _ (ih _)

end Build

namespace Script

open Build

/-- A build in a series is a run of its source on a fresh status, with the header of the listing
before what the run writes, whatever has been built before it and whatever errors were found there.
It comes to what the run comes to, and the files besides the listing are left as the run leaves
them. -/
theorem StageScripts.build_refines (scripts : StageScripts) (settings : Settings)
    (files others : FileTree) (earlier : List String) (program : String) (later : List String)
    {text : String} {location : Location}
    (begun : Begun scripts.stages settings (Path.ofProgram program)
      (filesAfter scripts.stages settings files earlier) text location)
    (same : (filesAfter scripts.stages settings files earlier).SameBut location others) :
    let source := Path.ofProgram program
    let start := filesAfter scripts.stages settings files earlier
    let build := ofProgram scripts.stages settings program start
    series scripts.stages settings files (earlier ++ program :: later) =
        series scripts.stages settings files earlier ++
          build :: series scripts.stages settings build.files later ∧
      Refines source location (job scripts.stages settings source text)
        (Workspace.start {} none others) build :=
  ⟨series_append _ _ _ _ _,
    ofProgram_refines scripts.uniform_of_mem scripts.blind_of_mem begun same⟩

/-- Stages up to a code generator, which find no fault themselves. -/
def smoothScripts : StageScripts :=
  ⟨some (.steps [.drain]), some ⟨none, none, none⟩, some false⟩

/-- Two sources, the first of which has a character that begins no token. -/
def strayAndName : FileTree :=
  ((FileTree.scratch ["work"]).put ["work", "stray.tny"] (.file "@".toUTF8)).put
    ["work", "name.tny"] (.file "x".toUTF8)

theorem build_refines_strayAndName :
    let settings : Settings := { phase := .generate }
    let stages := smoothScripts.stages
    let start := filesAfter stages settings strayAndName ["stray"]
    let source := Path.ofProgram "name"
    let location := ["work", "name_listing.txt"]
    let others := start.put location (.file "old".toUTF8)
    let build := ofProgram stages settings "name" start
    Begun stages settings source start "x" location ∧ start.SameBut location others ∧
      series stages settings strayAndName ["stray", "name"] =
        series stages settings strayAndName ["stray"] ++ [build] ∧
      Refines source location (job stages settings source "x") (Workspace.start {} none others)
        build := by
  intro settings stages start source location others build
  have begun : Begun stages settings source start "x" location := by
    constructor
    case present => decide
    case read => decide +kernel
    case site => decide +kernel
  have same : start.SameBut location others := .put start (by decide) _
  exact ⟨begun, same,
    smoothScripts.build_refines settings strayAndName others ["stray"] "name" [] begun same⟩

/-- The error in the first program is not one in the second. -/
example : (series smoothScripts.stages { phase := .generate } strayAndName ["stray", "name"]).map
    (fun build => build.result.toOption.map Outcome.flagged) = [some true, some false] := by
  decide +kernel

end Script

end FrontEnd
