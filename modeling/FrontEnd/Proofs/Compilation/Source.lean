import FrontEnd.Proofs.Compilation.Effects
import FrontEnd.Script.Stages

/-! # What a build does to its source

The listing of a source is never the source itself. Its code is the source itself if that has the
extension of code already: such a source is replaced once code is generated. In every other case a
build leaves its source as it was.
-/

namespace FrontEnd

namespace FileTree

open FrontEnd.Path

variable {tree other : FileTree} {path : Path} {text : String} {lead name : List Char}
  {directory : Location}

def fileAt? (tree : FileTree) (path : Path) : Option ByteArray :=
  match tree.resolve path with
  | .ok (.named directory name false) =>
    match tree.lookup? (directory ++ [name]) with
    | some (.file content) => some content
    | _ => none
  | _ => none

/-- What can be read is a file with a name in a directory. -/
theorem resolve_of_read (named : path.Named lead name) (leads : tree.Leads lead directory)
    (read : tree.read path = .ok text) :
    tree.resolve path = .ok (.named directory (String.ofList name) false) := by
  have resolved := resolve_of_leads leads named.single named.ne_nil
  rw [if_pos named.isName, ← named.path_eq] at resolved
  unfold FileTree.read at read
  rw [resolved] at read ⊢
  split_ifs at read ⊢
  rfl

/-- What can be read would be created where it is. -/
theorem creationSite_of_read (named : path.Named lead name) (leads : tree.Leads lead directory)
    (read : tree.read path = .ok text) :
    tree.creationSite path = .ok (directory ++ [String.ofList name]) := by
  have resolved := resolve_of_read named leads read
  unfold FileTree.read at read
  unfold creationSite
  rw [resolved] at read ⊢
  dsimp only at read ⊢
  split at read
  · cases read
  · next short =>
    rw [if_neg short]
    cases found : tree.lookup? (directory ++ [String.ofList name]) with
    | none => rfl
    | some entry =>
      rw [found] at read
      cases entry with
      | directory => cases read
      | file content => rfl

/-- The file of a path with a name is what is at that name in the directory. -/
theorem fileAt?_of_resolve (resolved : tree.resolve path = .ok (.named directory text false)) :
    tree.fileAt? path =
      match tree.lookup? (directory ++ [text]) with
      | some (.file content) => some content
      | _ => none := by
  rw [fileAt?, resolved]

end FileTree

namespace Build

open FrontEnd.Path

variable {ρ : Type} {stages : Stages ρ} {settings : Settings} {source : Path} {files : FileTree}
  {text : String} {location : Location} {build : Build ρ} {lead name : List Char}
  {directory : Location}

/-- The directory of a source is still there after a build. -/
theorem Effects.leads (effects : Effects stages settings source files build)
    (begun : Begun stages settings source files text location)
    (leads : files.Leads lead directory) : build.files.Leads lead directory := by
  obtain ⟨-, text', location', content, begun', listed⟩ := effects.listed begun.refusal?
  obtain ⟨rfl, rfl⟩ := begun.unique begun'
  have below := FileTree.creationSite_ne_nil begun.site
  obtain ⟨-, -, -, -, solid⟩ := FileTree.creationSite_ok begun.site
  cases coded : files.creationSite source.code with
  | error fault =>
    have same : files.SameBut location' build.files := by
      refine ⟨effects.workingDirectory, fun place away => effects.frame place ?_ ?_⟩
      · intro site
        cases begun.site.symm.trans site
        exact away rfl
      · rw [coded]
        nofun
    exact leads.sameBut same solid
  | ok site =>
    let closed : FileTree := files.put location' (.file content)
    have opened : files.SameBut location' closed := .put files below _
    have written : closed.SameBut site build.files := by
      refine ⟨effects.workingDirectory, fun place away => ?_⟩
      rw [FileTree.lookup?_put _ _ _ _ below]
      split
      · next same => rw [same, listed]
      · next unlisted =>
        refine effects.frame place (fun listing => ?_) fun code => ?_
        · cases begun.site.symm.trans listing
          exact unlisted rfl
        · cases coded.symm.trans code
          exact away rfl
    have coded' := (FileTree.code_creationSite begun.read begun.site opened).trans coded
    obtain ⟨-, -, -, -, solid'⟩ := FileTree.creationSite_ok coded'
    exact (leads.sameBut opened solid).sameBut written solid'

/-- What a build does to the file of its source. -/
structure SourceEffects (stages : Stages ρ) (settings : Settings) (source : Path)
    (files : FileTree) (build : Build ρ) : Prop where
  /-- The source is as it was, unless code was generated and the source is its own code. -/
  kept : (∀ text location generator checked last,
      Begun stages settings source files text location →
      (job stages settings source text).Drafts (start source files location) generator checked last →
        source.code ≠ source) →
    build.files.fileAt? source = files.fileAt? source
  /-- A source that is its own code is replaced once that is generated. -/
  replaced (text location generator checked last) :
    Begun stages settings source files text location →
    (job stages settings source text).Drafts (start source files location) generator checked last →
    source.code = source →
      build.files.fileAt? source =
        some (generator.generate checked source.code settings.traceCode).text.toUTF8
  /-- In a build that is not refused the source, the listing and the code are different files,
  except that a source can be its own code. -/
  apart (text : String) (location : Location) :
    Begun stages settings source files text location →
    ∃ place, files.creationSite source = .ok place ∧ location ≠ place ∧
      ∀ site, files.creationSite source.code = .ok site →
        site ≠ location ∧ (site = place ↔ source.code = source)
  /-- A source is its own code if it has the extension of code, and a stem that is not a single
  dot. -/
  own (text : String) (location : Location) :
    Begun stages settings source files text location →
    (source.code = source ↔
      source.extension? = some codeExtension ∧ source.stem? ≠ some ['.'])

theorem code_eq_self_iff (named : source.Named lead name) :
    source.code = source ↔ codeName name = name := by
  rw [named.code.1, named.path_eq, Path.mk.injEq, List.append_cancel_left_eq]

/-- A build that is not refused does to its source what it does to the file at its place. -/
theorem Effects.onSource (effects : Effects stages settings source files build)
    (begun : Begun stages settings source files text location) :
    SourceEffects stages settings source files build := by
  obtain ⟨lead, name, directory, named, leads⟩ := FileTree.named_of_read begun.read
  have resolved := FileTree.resolve_of_read named leads begun.read
  have resolved' : build.files.resolve source = .ok (.named directory (String.ofList name) false) := by
    rw [← resolved, named.path_eq]
    exact FileTree.resolve_congr leads (effects.leads begun leads) named.single named.ne_nil
  have placed := FileTree.creationSite_of_read named leads begun.read
  have listed := FileTree.listing_site named leads begun.site
  have unlisted : location ≠ directory ++ [String.ofList name] := by
    rw [listed, Ne, FileTree.place_eq_iff]
    exact listingName_ne_self name
  constructor
  case kept =>
    intro spared
    have same : build.files.lookup? (directory ++ [String.ofList name]) =
        files.lookup? (directory ++ [String.ofList name]) := by
      by_contra touched
      -- Nothing but the code is left that could have been written to.
      have coded : files.creationSite source.code = .ok (directory ++ [String.ofList name]) := by
        by_contra uncoded
        refine touched (effects.frame _ (fun listing => ?_) uncoded)
        cases begun.site.symm.trans listing
        exact unlisted rfl
      obtain ⟨-, text, location, generator, checked, last, begun, drafts⟩ :=
        effects.code _ coded touched
      refine spared text location generator checked last begun drafts ?_
      rw [code_eq_self_iff named]
      exact ((FileTree.place_eq_iff directory _ _).mp (FileTree.code_site named leads coded)).symm
    rw [FileTree.fileAt?_of_resolve resolved', FileTree.fileAt?_of_resolve resolved, same]
  case replaced =>
    intro text location generator checked last begun drafts own
    have coded : files.creationSite source.code = .ok (directory ++ [String.ofList name]) := by
      rw [own]
      exact placed
    rw [FileTree.fileAt?_of_resolve resolved',
      effects.generated _ text location generator checked last coded begun drafts]
  case apart =>
    intro text' location' begun'
    obtain ⟨rfl, rfl⟩ := begun.unique begun'
    refine ⟨_, placed, unlisted, fun site coded => ?_⟩
    refine ⟨FileTree.code_site_ne begun.read begun.site coded, ?_⟩
    rw [FileTree.code_site named leads coded, FileTree.place_eq_iff, code_eq_self_iff named]
  case own =>
    intro _ _ _
    rw [code_eq_self_iff named, codeName_eq_self_iff, Path.extension?, Path.stem?,
      named.fileName?]
    simp

/-- Whatever the stages, the files and the program, a build leaves its source as it was, but for a
source with the extension of code, which is replaced by the code once that is generated. The listing
is never the source, and the code is it in that case only. -/
theorem ofProgram_source (stages : Stages ρ) (settings : Settings) (program : String)
    (files : FileTree) :
    SourceEffects stages settings (Path.ofProgram program) files
      (ofProgram stages settings program files) := by
  obtain ⟨failure, refusal, build⟩ | ⟨text, location, begun, build⟩ :=
    ofProgram_cases stages settings program files
  · have unbegun {text : String} {location : Location}
        (begun : Begun stages settings (Path.ofProgram program) files text location) : False := by
      cases begun.refusal?.symm.trans refusal
    rw [build]
    constructor
    case kept => exact fun _ => rfl
    case replaced => exact fun _ _ _ _ _ begun => (unbegun begun).elim
    case apart => exact fun _ _ begun => (unbegun begun).elim
    case own => exact fun _ _ begun => (unbegun begun).elim
  · let asked := job stages settings (Path.ofProgram program) text
    have present : asked.missing? = none := begun.present
    rw [build]
    exact (ofRun_effects begun (Job.ends present _)).onSource begun

/-- A source with the extension of code does not outlive the generation of its code. -/
theorem source_lost_to_code :
    let stages : Stages Unit := ⟨some (.draining Unit),
      some (Script.AnalyzerScript.analyzer ⟨none, none, none⟩), some (Script.listingGenerator false)⟩
    let files := (FileTree.scratch ["work"]).put ["work", "p.tm"] (.file "x = 1;".toUTF8)
    let build := ofProgram stages { phase := .generate } "p.tm" files
    let source := Path.ofProgram "p.tm"
    files.fileAt? source = some "x = 1;".toUTF8 ∧
      build.files.fileAt? source = some "HALT\n".toUTF8 ∧ source.code = source := by
  decide +kernel

end Build

end FrontEnd
