import FrontEnd.Proofs.Compilation.Limited
import FrontEnd.Proofs.Compilation.Plan
import FrontEnd.Proofs.Scanner.Unlisted

/-! # Runs that differ in what they list

Two computations agree if they cannot be told apart but by what they write into a listing that is
never full: from workspaces that differ in their listings only they come to the same result, and to
workspaces that differ in their listings only. Any two writes agree, and so does what does not touch
the listing with itself. Sequencing keeps agreement, so it holds of the phases under any two
settings of the trace switches.
-/

namespace FrontEnd

variable {ρ α β : Type}

/-- Workspaces that differ in nothing but what is in their listings. -/
structure Workspace.Unlisted (left right : Workspace ρ) : Prop where
  same : { right with listing := left.listing } = left
  free : left.listing.limit = none
  otherFree : right.listing.limit = none

theorem Workspace.Unlisted.refl {workspace : Workspace ρ}
    (unlimited : workspace.listing.limit = none) : workspace.Unlisted workspace :=
  ⟨rfl, unlimited, unlimited⟩

namespace Run

/-- Results that differ in nothing but what is in their listings. -/
inductive Unlisted : EStateM.Result Failure (Workspace ρ) α →
    EStateM.Result Failure (Workspace ρ) α → Prop where
  | ok (value : α) {left right} (unlisted : Workspace.Unlisted left right) :
    Unlisted (.ok value left) (.ok value right)
  | error (failure : Failure) {left right} (unlisted : Workspace.Unlisted left right) :
    Unlisted (.error failure left) (.error failure right)

/-- Computations that can be told apart by their listings only. -/
def Agrees (work other : Run ρ α) : Prop :=
  ∀ left right : Workspace ρ, left.Unlisted right → Unlisted (work left) (other right)

/-- What a run has come to, but for its listing. -/
def unlisted (result : EStateM.Result Failure (Workspace ρ) α) :
    EStateM.Result Failure (Workspace ρ) α :=
  mapLast (fun last => { last with listing := .empty none }) result

theorem Unlisted.unlisted_eq {left right : EStateM.Result Failure (Workspace ρ) α}
    (related : Unlisted left right) : unlisted left = unlisted right := by
  cases related with
  | ok value related => rw [← related.same]; rfl
  | error failure related => rw [← related.same]; rfl

section

variable {work other : Run ρ α} {later otherLater : α → Run ρ β}

theorem Agrees.bind (first : Agrees work other)
    (second : ∀ value, Agrees (later value) (otherLater value)) :
    Agrees (work >>= later) (other >>= otherLater) := by
  intro left right unlisted
  have ran := first left right unlisted
  change Unlisted (EStateM.bind work later left) (EStateM.bind other otherLater right)
  unfold EStateM.bind
  generalize work left = result, other right = otherResult at ran
  cases ran with
  | ok value unlisted => exact second value _ _ unlisted
  | error failure unlisted => exact .error failure unlisted

theorem Deaf.agrees (deaf : Deaf work) : Agrees work work := by
  intro left right unlisted
  have kept : (after work right).listing = right.listing := deaf.keeps right
  have ran := deaf right left.listing
  rw [unlisted.same] at ran
  rw [ran]
  cases done : work right with
  | ok value last =>
    rw [after_of_ok done] at kept
    exact .ok value ⟨rfl, unlisted.free, kept ▸ unlisted.otherFree⟩
  | error failure last =>
    rw [after_of_error done] at kept
    exact .error failure ⟨rfl, unlisted.free, kept ▸ unlisted.otherFree⟩

end

theorem agrees_pure (value : α) : Agrees (pure value : Run ρ α) (pure value) :=
  Deaf.agrees fun _ _ => rfl

theorem agrees_throw (failure : Failure) : Agrees (throw failure : Run ρ α) (throw failure) :=
  Deaf.agrees fun _ _ => rfl

theorem agrees_note (entry : Journal.Entry) : Agrees (note entry : Run ρ Unit) (note entry) :=
  Deaf.agrees fun _ _ => rfl

theorem agrees_call (stage : StageCall) : Agrees (call stage : Run ρ Unit) (call stage) :=
  Deaf.agrees fun _ _ => rfl

theorem agrees_flag : Agrees (flag : Run ρ Unit) flag :=
  Deaf.agrees fun _ _ => rfl

theorem agrees_skips (activity : Journal.Activity) :
    Agrees (skips activity : Run ρ Bool) (skips activity) := by
  apply Deaf.agrees
  intro workspace listing
  obtain ⟨⟨line, flagged⟩, _, _, _, _, _⟩ := workspace
  cases flagged <;> rfl

/-- Writes agree, whatever it is that they write, and whether or not they are made. -/
theorem agrees_writeWhen (wanted otherWanted : Bool) (text other : String) :
    Agrees (writeWhen wanted text : Run ρ Unit) (writeWhen otherWanted other) := by
  intro left right unlisted
  have limit (listing : Listing) (wanted : Bool) (text : String) :
      (if wanted then listing.write text else listing).limit = listing.limit := by
    cases wanted <;> rfl
  rw [writeWhen_unlimited unlisted.free, writeWhen_unlimited unlisted.otherFree]
  refine .ok () ⟨?_, (limit ..).trans unlisted.free, (limit ..).trans unlisted.otherFree⟩
  rw [← unlisted.same]

theorem agrees_write (text other : String) : Agrees (write text : Run ρ Unit) (write other) :=
  agrees_writeWhen true true text other

/-! ## The phases under different trace switches -/

/-- A uniform parser is used alike, whatever goes into its transcript. -/
theorem agrees_transcribe (settings other : Settings) (source : String) {parser : Parser ρ}
    (uniform : parser.Uniform) :
    Agrees (transcribe settings source parser) (transcribe other source parser) := by
  intro left right unlisted
  obtain ⟨sound, opened, inner⟩ := openTranscript_scanner settings source left
  obtain ⟨otherSound, otherOpened, otherInner⟩ := openTranscript_scanner other source right
  have sessions : Session.Unlisted (openTranscript settings source left)
      (openTranscript other source right) := by
    constructor
    case status => exact (congrArg Workspace.status unlisted.same).symm
    case journal => exact (congrArg Workspace.journal unlisted.same).symm
    case inner => exact inner.trans otherInner.symm
    case free => exact ⟨sound, opened ▸ unlisted.free⟩
    case otherFree => exact ⟨otherSound, otherOpened ▸ unlisted.otherFree⟩
  have alike := uniform.alike Session.Unlisted.simulation sessions
  have parsed := alike.session
  rw [transcribe_of_sound rfl parsed.free.sound, transcribe_of_sound rfl parsed.otherFree.sound,
    alike.result]
  refine .ok _ ⟨?_, parsed.free.unlimited, parsed.otherFree.unlimited⟩
  simp only [take, parsed.status, parsed.journal, alike.reports]
  rw [← unlisted.same]

theorem agrees_accept (result : Except OutOfMemory Forest) :
    Agrees (accept result : Run ρ Forest) (accept result) := by
  cases result with
  | ok forest => exact (agrees_note _).bind fun _ => agrees_pure forest
  | error failure =>
    exact (agrees_note _).bind fun _ => (agrees_write _ _).bind fun _ =>
      agrees_flag.bind fun _ => agrees_pure Forest.empty

theorem agrees_parse (settings other : Settings) (source : String) {parser : Parser ρ}
    (uniform : parser.Uniform) :
    Agrees (parse settings source parser) (parse other source parser) := by
  rw [parse_eq, parse_eq]
  apply (agrees_note _).bind
  intro _
  apply (agrees_call _).bind
  intro _
  apply (agrees_transcribe settings other source uniform).bind
  intro result
  apply (agrees_accept result).bind
  intro forest
  exact (agrees_writeWhen _ _ _ _).bind fun _ => agrees_pure forest

theorem agrees_scan (settings other : Settings) (source : String) :
    Agrees (scan settings source : Run ρ Unit) (scan other source) := by
  rw [scan_eq, scan_eq]
  apply (agrees_writeWhen _ _ _ _).bind
  intro _
  apply (agrees_transcribe settings other source (draining_uniform ρ)).bind
  intro _
  exact Deaf.agrees fun _ _ => rfl

theorem Blind.agrees {work : EStateM Fault Desk α} (blind : Blind work) :
    Agrees (onDesk work : Run ρ α) (onDesk work) := by
  induction blind with
  | pure value =>
    rw [onDesk_pure]
    exact agrees_pure value
  | throw fault =>
    rw [onDesk_throw]
    exact agrees_throw (.listingNotWritten fault)
  | write text =>
    rw [onDesk_write]
    exact agrees_write text text
  | flag =>
    rw [onDesk_flag]
    exact agrees_flag
  | bind _ _ first later =>
    rw [onDesk_bind]
    exact first.bind later

theorem agrees_analyze (settings other : Settings) {analyzer : Analyzer}
    (blind : BlindAnalyzer analyzer) (forest : Forest) :
    Agrees (analyze settings analyzer forest : Run ρ Forest) (analyze other analyzer forest) := by
  unfold analyze
  simp only [atDesk_eq]
  apply (agrees_writeWhen _ _ _ _).bind
  intro _
  apply ((agrees_call _).bind fun _ => (blind.symbols forest).agrees).bind
  intro _
  apply (agrees_writeWhen _ _ _ _).bind
  intro _
  apply ((agrees_call _).bind fun _ => (blind.types forest).agrees).bind
  intro checked
  exact (agrees_writeWhen _ _ _ _).bind fun _ => agrees_pure checked

/-- Code is generated alike, as long as the settings ask for the same annotations. -/
theorem agrees_generate {settings other : Settings} (code : settings.traceCode = other.traceCode)
    (generator : CodeGenerator) (path : Path) (forest : Forest) :
    Agrees (generate settings generator path forest : Run ρ Path)
      (generate other generator path forest) := by
  have same : (generate settings generator path forest : Run ρ Path) =
      generate other generator path forest := by
    unfold generate
    rw [code]
  rw [same]
  exact (deaf_generate other generator path forest).agrees

/-- Runs agree if their settings ask for the same phase and for the same annotations. -/
theorem agrees_ofStages {settings other : Settings} (phase : settings.phase = other.phase)
    (code : settings.traceCode = other.traceCode) (source : String) (codePath : Path)
    {stages : Stages ρ} (uniform : ∀ parser ∈ stages.parser, parser.Uniform)
    (blind : ∀ analyzer ∈ stages.analyzer, BlindAnalyzer analyzer) :
    Agrees (ofStages stages settings source codePath) (ofStages stages other source codePath) := by
  unfold ofStages
  rw [phase]
  cases planned : stages.plan other.phase with
  | error stage => exact agrees_throw _
  | ok plan =>
    have provides := Stages.provides_of_plan planned
    generalize other.phase = last at provides
    cases provides with
    | scan => exact (agrees_scan settings other source).bind fun _ => agrees_pure none
    | parse parses =>
      have parsing := agrees_parse settings other source (uniform _ parses)
      exact parsing.bind fun _ => agrees_pure none
    | analyze parses analyzes =>
      apply (agrees_parse settings other source (uniform _ parses)).bind
      intro forest
      apply (agrees_skips .analysis).bind
      intro skipped
      cases skipped with
      | true => exact agrees_pure none
      | false =>
        have analysis := agrees_analyze (ρ := ρ) settings other (blind _ analyzes) forest
        exact analysis.bind fun _ => agrees_pure none
    | generate parses analyzes generates =>
      apply (agrees_parse settings other source (uniform _ parses)).bind
      intro forest
      apply (agrees_skips .analysis).bind
      intro skipped
      cases skipped with
      | true => exact agrees_pure none
      | false =>
        apply (agrees_analyze settings other (blind _ analyzes) forest).bind
        intro checked
        apply (agrees_skips .codeGeneration).bind
        intro skipped
        cases skipped with
        | true => exact agrees_pure none
        | false =>
          simp only [Bool.false_eq_true, ↓reduceIte, map_eq_pure_bind]
          exact (agrees_generate code _ _ checked).bind fun _ => agrees_pure _

end Run

end FrontEnd
