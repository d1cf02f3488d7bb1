import FrontEnd.Proofs.Compilation.Preparation
import FrontEnd.Proofs.Compilation.Tracing
import FrontEnd.Proofs.Forest.Append
import FrontEnd.Proofs.Script.Proper

/-! # From identifiers to code

The declaring parser makes a declaration of every identifier, and none of its links is ever refused:
each declaration is a new node that is put behind those before it. An analyzer that finds no fault
leaves the declarations as they are but for their types. So the listed code has a line for every
identifier of the source, in order.
-/

namespace FrontEnd.Script

open Run

/-! ## Declarations -/

/-- In a sound forest every declaration is accepted. -/
theorem declare_ok {forest : Forest} (sound : forest.Sound) (name : String) (line : Nat) :
    ∃ after, declare forest name line = .ok after ∧ after.Sound ∧
      after.labels = forest.labels ++ [(.name name, line)] := by
  let made := forest.add (.declaration .scalar) line
  let named := made.2.setPayload made.1 (.name name)
  have named_sound : named.Sound := (sound.add _ line).setPayload _ _
  have loose : named.Loose made.1 := (sound.loose_add _ line).setPayload _
  have labels : named.labels = forest.labels ++ [(.name name, line)] :=
    forest.labels_setPayload_add _ line _
  cases start : named.root with
  | none =>
    have rooted : named.makeRoot made.1 = .ok { named with root := some made.1 } := by
      simp [Forest.makeRoot, loose.present, start, loose.free]
    refine ⟨_, ?_, named_sound.makeRoot rooted, labels⟩
    simp only [declare]
    rw [start]
    exact rooted
  | some root =>
    have apart : root ≠ made.1 := fun same => loose.not_root (same ▸ start)
    obtain ⟨last, appended⟩ :=
      named_sound.append_of_loose loose (named_sound.root_exists start) apart
    refine ⟨_, ?_, named_sound.append appended, (Forest.labels_occupy ..).trans labels⟩
    simp only [declare]
    rw [start]
    exact appended

def identifiers (scanned : List Token) : List Token :=
  scanned.filter fun token => token.kind = .identifier

def declareTokens (forest : Forest) (names : List Token) : Except LinkError Forest :=
  names.foldlM (fun forest token => declare forest token.lexeme token.line) forest

/-- In a sound forest all declarations are accepted, and they stand behind what is there. -/
theorem declareTokens_ok {forest : Forest} (sound : forest.Sound) (names : List Token) :
    ∃ after, declareTokens forest names = .ok after ∧ after.Sound ∧
      after.labels = forest.labels ++ names.map fun token => (.name token.lexeme, token.line) := by
  induction names generalizing forest with
  | nil => exact ⟨forest, rfl, sound, (List.append_nil _).symm⟩
  | cons token rest ih =>
    obtain ⟨declared, first, sound', labels'⟩ := declare_ok sound token.lexeme token.line
    obtain ⟨after, later, sound'', labels''⟩ := ih sound'
    refine ⟨after, ?_, sound'', ?_⟩
    · rw [declareTokens, List.foldlM_cons, first]
      exact later
    · rw [labels'', labels', List.append_assoc]
      rfl

/-- A lexer is drained while its identifiers are declared, each on its line. -/
theorem declareAll_lexer (session : Session Lexer) {forest : Forest} (sound : forest.Sound) :
    (declareAll session forest).1 = session.drain.2 ∧
      declareTokens forest (identifiers session.drain.1) = .ok (declareAll session forest).2 := by
  induction session using Session.drain_induction generalizing forest with
  | last session last =>
    rw [declareAll_last forest last, Session.drain_last last]
    refine ⟨rfl, ?_⟩
    have none : identifiers [session.pull.1] = [] := by simp [identifiers, last]
    rw [none]
    rfl
  | more session more ih =>
    rw [declareAll_more forest more, Session.drain_more more]
    have line : session.pull.2.status.line = session.pull.1.line := Lexer.line_observe _ _
    by_cases named : session.pull.1.kind = .identifier
    · obtain ⟨declared, first, sound', -⟩ := declare_ok sound session.pull.1.lexeme session.pull.1.line
      obtain ⟨drained, later⟩ := ih sound'
      rw [if_pos named, line, first]
      refine ⟨drained, ?_⟩
      simp only [identifiers, List.filter_cons, named, decide_true, ↓reduceIte, declareTokens,
        List.foldlM_cons, first]
      exact later
    · rw [if_neg named]
      obtain ⟨drained, later⟩ := ih sound
      refine ⟨drained, ?_⟩
      simpa [identifiers, named] using later

/-- The declaring parser yields the declarations of the identifiers of a source, whatever is written
into a listing on the way. The flag is up afterwards if it was before or if a token is a fault. -/
theorem declaring_parse {ρ : Type} (settings : Settings) (source : String)
    (workspace : Workspace ρ) :
    let parsed := (declaringParser ρ).parse (openTranscript settings source workspace)
    let scanned := (tokens source workspace.status).1
    (∃ forest, declareTokens .empty (identifiers scanned) = .ok forest ∧
      parsed.result = .ok forest) ∧
      parsed.session.status.flagged =
        (workspace.status.flagged || scanned.any fun token => token.kind.isFault) := by
  intro parsed scanned
  have fronts : (openTranscript settings source workspace).Fronts
      (Lexer.session source workspace.status) := openTranscript_fronts settings source
  have alike := (declaringParser_uniform ρ).alike Session.Fronts.simulation fronts
  obtain ⟨drained, declared⟩ :=
    declareAll_lexer (Lexer.session source workspace.status) Forest.Sound.empty
  refine ⟨⟨_, declared, alike.result⟩, ?_⟩
  have status : parsed.session.status = (tokens source workspace.status).2.status :=
    alike.session.status.trans (congrArg Session.status drained)
  rw [status]
  exact Lexer.flagged_drain _

/-! ## Types and code -/

/-- A computation that comes to its end with a value, as long as its listing is never full, and leaves
the status and the files alone. -/
def Yields {ρ α : Type} (value : α) (work : Run ρ α) : Prop :=
  ∀ start : Workspace ρ, start.listing.limit = none →
    ∃ last, work start = .ok value last ∧ last.listing.limit = none ∧
      last.status = start.status ∧ last.files = start.files

section

variable {ρ α β : Type}

theorem Yields.bind {work : Run ρ α} {later : α → Run ρ β} {value : α} {result : β}
    (first : Yields value work) (second : Yields result (later value)) :
    Yields result (work >>= later) := by
  intro start unlimited
  obtain ⟨middle, ran, room, status, files⟩ := first start unlimited
  obtain ⟨last, ran', room', status', files'⟩ := second middle room
  exact ⟨last, (bind_of_ok ran).trans ran', room', status'.trans status, files'.trans files⟩

theorem yields_pure (value : α) : Yields value (pure value : Run ρ α) :=
  fun start unlimited => ⟨start, rfl, unlimited, rfl, rfl⟩

theorem yields_call (stage : StageCall) : Yields () (call stage : Run ρ Unit) :=
  fun _ unlimited => ⟨_, rfl, unlimited, rfl, rfl⟩

theorem yields_write (text : String) : Yields () (write text : Run ρ Unit) :=
  fun _ unlimited => ⟨_, write_unlimited unlimited text, unlimited, rfl, rfl⟩

theorem yields_writeWhen (wanted : Bool) (text : String) :
    Yields () (writeWhen wanted text : Run ρ Unit) := by
  cases wanted with
  | false => exact yields_pure ()
  | true => exact yields_write text

/-- An analyzer that neither flags an error nor fails. -/
def AnalyzerScript.faultless (text : Option String) : AnalyzerScript :=
  ⟨none, none, text⟩

/-- An analyzer without faults makes every node an integer and changes nothing else. -/
theorem yields_analyze (settings : Settings) (text : Option String) (forest : Forest) :
    Yields (forest.setValueTypes .integer)
      (analyze settings (AnalyzerScript.faultless text).analyzer forest : Run ρ Forest) := by
  have symbols : Yields () (atDesk .buildSymbols
      ((AnalyzerScript.faultless text).analyzer.buildSymbols forest) : Run ρ Unit) := by
    rw [atDesk_eq]
    apply (yields_call _).bind
    change Yields () (onDesk (Desk.write _ >>= fun _ => pure ()))
    rw [onDesk_bind, onDesk_write]
    exact (yields_write _).bind (yields_pure ())
  have types : Yields (forest.setValueTypes .integer) (atDesk .checkTypes
      ((AnalyzerScript.faultless text).analyzer.checkTypes forest) : Run ρ Forest) := by
    rw [atDesk_eq]
    apply (yields_call _).bind
    cases text with
    | none => exact yields_pure _
    | some text =>
      change Yields _ (onDesk (Desk.write text >>= fun _ => pure _))
      rw [onDesk_bind, onDesk_write]
      exact (yields_write text).bind (yields_pure _)
  apply (yields_writeWhen _ _).bind
  apply symbols.bind
  apply (yields_writeWhen _ _).bind
  apply types.bind
  exact (yields_writeWhen _ _).bind (yields_pure _)

end

/-- Once every node is an integer, the lines of the code say what the nodes stand for. -/
theorem codeLines_integers (forest : Forest) :
    codeLines (forest.setValueTypes .integer) =
      String.join (forest.labels.zipIdx.map fun ((payload, line), index) =>
        NodeId.text ⟨index⟩ ++ " " ++ payload.name?.getD "" ++ " " ++ toString line ++
          " Integer\n") := by
  simp only [codeLines, Forest.setValueTypes, Forest.labels, Array.toList_map, List.zipIdx_map,
    List.map_map]
  have ending : " " ++ (ValueType.integer.text ++ "\n") = " Integer\n" := rfl
  refine congrArg String.join (List.map_congr_left fun numbered _ => ?_)
  obtain ⟨node, index⟩ := numbered
  simp only [codeLine, Function.comp, Prod.map, id, String.append_assoc, ending]

/-- The code that names identifiers: a line for each of them, in order, and the end. -/
def identifierCode (names : List Token) : String :=
  String.join (names.zipIdx.map fun (token, index) =>
    "#" ++ toString (index + 1) ++ " " ++ token.lexeme ++ " " ++ toString token.line ++
      " Integer\n") ++ "HALT\n"

/-- The listed code of declarations names the identifiers. -/
theorem code_of_declarations {names : List Token} {forest : Forest} (path : Path)
    (declared : declareTokens .empty names = .ok forest) :
    (listingGenerator false).generate (forest.setValueTypes .integer) path false =
      ⟨identifierCode names, none⟩ := by
  obtain ⟨after, declared', -, labels⟩ := declareTokens_ok Forest.Sound.empty names
  cases declared.symm.trans declared'
  have lines : codeLines (forest.setValueTypes .integer) ++ "HALT\n" = identifierCode names := by
    have empty : Forest.empty.labels = [] := rfl
    rw [codeLines_integers, labels, empty, List.nil_append, List.zipIdx_map, List.map_map]
    rfl
  simp only [listingGenerator, Bool.false_eq_true, ↓reduceIte, String.empty_append, lines]

/-! ## Whole runs -/

section

variable (settings : Settings) (source : String) {start : Workspace ParserAnswer}
  (unlimited : start.listing.limit = none)

include unlimited

/-- The parse phase yields the declarations of the identifiers. -/
theorem parse_declarations :
    let scanned := (tokens source start.status).1
    ∃ forest last, parse settings source ParserScript.declaring.parser start = .ok forest last ∧
      declareTokens .empty (identifiers scanned) = .ok forest ∧ start.Onward [.parse] last ∧
      last.status.flagged =
        (start.status.flagged || scanned.any fun token => token.kind.isFault) := by
  intro scanned
  obtain ⟨⟨forest, declared, result⟩, flagged⟩ :=
    declaring_parse settings source { start with journal := start.journal ++ [.parsing] }
  obtain ⟨last, ran, onward, raised, -⟩ :=
    parse_run settings source ParserScript.declaring.proper unlimited
  change (ParserScript.declaring.parser.parse _).result = _ at result
  rw [result] at ran raised
  refine ⟨forest, last, ran, declared, onward, ?_⟩
  rw [Bool.eq_iff_iff, raised, ← flagged]
  simp
  rfl

end

/-- From the source to the code, with the declaring parser, an analyzer without faults and the listing
generator. No link of the parser is refused. If no token is a fault, there is code, and its file names
the identifiers of the source in order, each with its line. If one is, there is no code, and no file
is touched. -/
theorem code_names_identifiers (settings : Settings) (text : Option String) (source : String)
    (codePath : Path) (status : Status) (files : FileTree) {location : Location}
    (clear : status.flagged = false) (site : files.creationSite codePath = .ok location) :
    let stages := StageScripts.stages ⟨some .declaring, some (.faultless text), some false⟩
    let start := Workspace.start status none files
    let run := ofStages stages { settings with phase := .generate, traceCode := false } source
      codePath start
    let scanned := (tokens source status).1
    let parsed := ParserScript.declaring.parser.parse
      (openTranscript settings source { start with journal := [.parsing] })
    (∃ forest, declareTokens .empty (identifiers scanned) = .ok forest ∧
      parsed.result = .ok forest) ∧
    if ∃ token ∈ scanned, token.kind.isFault = true then
      ∃ last, run = .ok none last ∧ last.files = files
    else
      ∃ last, run = .ok (some codePath) last ∧ files.SameBut location last.files ∧
        last.files.lookup? location =
          some (.file (identifierCode (identifiers scanned)).toUTF8) := by
  intro stages start run scanned parsed
  refine ⟨(declaring_parse settings source { start with journal := [.parsing] }).1, ?_⟩
  let job : Job ParserAnswer :=
    ⟨stages, { settings with phase := .generate, traceCode := false }, source, codePath⟩
  have present : job.missing? = none := rfl
  have unlimited : start.listing.limit = none := rfl
  obtain ⟨forest, middle, parsing, declared, onward, flagged⟩ :=
    parse_declarations job.settings source unlimited
  have parsing : job.parsing start = .ok forest middle := parsing
  have flagged : middle.status.flagged = scanned.any fun token => token.kind.isFault := by
    rw [flagged, show start.status.flagged = false from clear, Bool.false_or]
    rfl
  split
  · next faulty =>
    have up : middle.status.flagged = true := flagged.trans (List.any_eq_true.mpr faulty)
    obtain ⟨last, ran, later, -⟩ := Job.run_of_flagged present rfl parsing up
    exact ⟨last, ran, later.files.trans onward.files⟩
  · next faultless =>
    have down : middle.status.flagged = false := flagged.trans (by simpa using faultless)
    obtain ⟨last, analyzed, -, kept, files_kept⟩ :=
      yields_analyze job.settings text forest middle (onward.unlimited unlimited)
    have drafts : job.Drafts start (listingGenerator false) (forest.setValueTypes .integer) last := by
      constructor
      case phase => rfl
      case generates => rfl
      case parsed => rw [Job.flags, after_of_ok parsing, down]
      case analyzed =>
        rw [Job.analysis, bind_of_ok parsing]
        exact analyzed
      case clear => rw [kept, down]
    exact drafts.coded present site (code_of_declarations codePath declared)

/-- Two identifiers on two lines. -/
theorem code_names_identifiers_twoLines :
    let text := some "checked\n"
    let source := "int ab;\ncd"
    let codePath := Path.ofText "out.tm"
    let files := FileTree.scratch ["work"]
    let stages := StageScripts.stages ⟨some .declaring, some (.faultless text), some false⟩
    let run := ofStages stages { phase := .generate } source codePath (.start {} none files)
    ({} : Status).flagged = false ∧ files.creationSite codePath = .ok ["work", "out.tm"] ∧
      identifierCode (identifiers (tokens source {}).1) =
        "#1 ab 1 Integer\n#2 cd 2 Integer\nHALT\n" ∧
      ∃ last, run = .ok (some codePath) last ∧ files.SameBut ["work", "out.tm"] last.files ∧
        last.files.lookup? ["work", "out.tm"] =
          some (.file (identifierCode (identifiers (tokens source {}).1)).toUTF8) := by
  intro text source codePath files stages run
  have clear : ({} : Status).flagged = false := rfl
  have site : files.creationSite codePath = .ok ["work", "out.tm"] := by decide +kernel
  have sound : ¬∃ token ∈ (tokens source {}).1, token.kind.isFault = true := by decide +kernel
  obtain ⟨-, ended⟩ := code_names_identifiers {} text source codePath {} files clear site
  rw [if_neg sound] at ended
  exact ⟨clear, site, by decide +kernel, ended⟩

end FrontEnd.Script
