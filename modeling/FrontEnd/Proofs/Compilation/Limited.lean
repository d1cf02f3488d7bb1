import FrontEnd.Proofs.Compilation.Cut
import FrontEnd.Proofs.Scanner.Limited

/-! # Runs under a limit

Each phase is cut cleanly by a limit on the listing, and so is a whole run. A parser that cannot tell
whether its transcript has failed goes on behind the cut, and the run stops when it is through. Code
is generated behind the last write, so a run that is cut has left the files alone.
-/

namespace FrontEnd.Run

variable {ρ : Type}

theorem openTranscript_capped (settings : Settings) (source : String) (workspace : Workspace ρ)
    (limit : Nat) :
    openTranscript settings source (workspace.capped limit) =
      (openTranscript settings source workspace).capped limit := by
  unfold openTranscript
  cases settings.echoSource <;> rfl

/-- A uniform parser goes on behind a cut, and what it reports is what it reports without one. -/
theorem cuts_transcribe (settings : Settings) (source : String) {parser : Parser ρ}
    (uniform : parser.Uniform) : Cuts (transcribe settings source parser) := by
  intro start unlimited
  obtain ⟨sound, opened, -⟩ := openTranscript_scanner settings source start
  generalize free_eq : parser.parse (openTranscript settings source start) = free
  have alike {limit : Nat} (within : start.listing.Within limit) :
      ∃ limited, parser.parse (openTranscript settings source (start.capped limit)) = limited ∧
        Parsed.Alike (Session.Shadows start.listing limit) free limited := by
    have shadows := Session.Shadows.refl (openTranscript settings source start) sound
      (opened.symm ▸ within)
    rw [opened, ← openTranscript_capped] at shadows
    exact ⟨_, rfl, free_eq ▸ uniform.alike (Session.Shadows.simulation unlimited limit) shadows⟩
  obtain ⟨_, -, widest⟩ := alike (Nat.le_refl start.listing.content.size)
  have shadows := widest.session
  have done := transcribe_of_sound free_eq shadows.sound
  have grows : start.listing.Grows (take start free).listing := shadows.grows
  constructor
  case grows =>
    rw [after_of_ok done]
    exact grows
  case whole =>
    intro limit within
    rw [after_of_ok done] at within
    obtain ⟨limited, limited_eq, same⟩ := alike (within.of_grows grows)
    have session := same.session.whole within
    have taken : take (start.capped limit) limited = (take start free).capped limit := by
      simp only [take, session, ← same.reports]
      rfl
    have sound : limited.session.scanner.fault = none := by
      rw [session]
      exact shadows.sound
    rw [transcribe_of_sound limited_eq sound, done, taken, same.result]
    rfl
  case short =>
    intro limit within full
    rw [after_of_ok done] at full ⊢
    obtain ⟨limited, limited_eq, same⟩ := alike within
    have ran := transcribe_of_fault limited_eq (same.session.stopped full)
    have reports : start.reports ++ limited.reports = start.reports ++ free.reports := by
      rw [same.reports]
    exact ⟨take (start.capped limit) limited, ran, same.session.listing, reports, rfl⟩

theorem files_transcribe (settings : Settings) (source : String) (parser : Parser ρ) :
    Keeps Workspace.files (transcribe settings source parser) := by
  intro workspace
  rw [after, transcribe]
  cases (parser.parse (openTranscript settings source workspace)).session.scanner.fault <;> rfl

theorem steady_accept (result : Except OutOfMemory Forest) :
    Steady (accept result : Run ρ Forest) := by
  cases result with
  | ok forest => exact (steady_note _).bind fun _ => steady_pure forest
  | error failure =>
    exact (steady_note _).bind fun _ => (steady_write _).bind fun _ =>
      steady_flag.bind fun _ => steady_pure Forest.empty

theorem leading_parse (settings : Settings) (source : String) {parser : Parser ρ}
    (uniform : parser.Uniform) : Leading (parse settings source parser) := by
  rw [parse_eq]
  have transcribed : Leading (transcribe settings source parser) :=
    ⟨cuts_transcribe settings source uniform, files_transcribe settings source parser⟩
  -- The parser reports behind two steps that write nothing, so no report is cut off before it.
  refine Deaf.bind_leading (fun _ _ => rfl) (fun _ => rfl) fun _ => ?_
  refine Deaf.bind_leading (fun _ _ => rfl) (fun _ => rfl) fun _ => ?_
  apply transcribed.bind_steady
  intro result
  apply (steady_accept result).bind
  intro forest
  exact (steady_writeWhen _ _).bind fun _ => steady_pure forest

theorem draining_uniform (ρ : Type) : (Parser.draining ρ).Uniform where
  alike simulation related := ⟨(simulation.drain related).2, rfl, rfl⟩

theorem steady_scan (settings : Settings) (source : String) :
    Steady (scan settings source : Run ρ Unit) := by
  rw [scan_eq]
  have transcribed : Steady (transcribe settings source (.draining ρ)) := by
    have leading : Leading (transcribe settings source (.draining ρ)) :=
      ⟨cuts_transcribe settings source (draining_uniform ρ), files_transcribe settings source _⟩
    refine ⟨leading, fun workspace => ?_⟩
    rw [after, transcribe]
    simp only [Parser.draining, take, List.append_nil]
    cases (openTranscript settings source workspace).drain.2.scanner.fault <;> rfl
  refine (steady_writeWhen _ _).bind fun _ => transcribed.bind fun _ => ?_
  exact Steady.of_status fun status => steady_note (.scannedTo status.line)

theorem Blind.steady {α : Type} {work : EStateM Fault Desk α} (blind : Blind work) :
    Steady (onDesk work : Run ρ α) := by
  induction blind with
  | pure value =>
    rw [onDesk_pure]
    exact steady_pure value
  | throw fault =>
    rw [onDesk_throw]
    exact steady_throw (.listingNotWritten fault)
  | write text =>
    rw [onDesk_write]
    exact steady_write text
  | flag =>
    rw [onDesk_flag]
    exact steady_flag
  | bind _ _ first later =>
    rw [onDesk_bind]
    exact first.bind later

/-- An analyzer whose passes are cut cleanly and leave the files and the reports alone. -/
structure SteadyAnalyzer (ρ : Type) (analyzer : Analyzer) : Prop where
  symbols (forest : Forest) : Steady (onDesk (analyzer.buildSymbols forest) : Run ρ Unit)
  types (forest : Forest) : Steady (onDesk (analyzer.checkTypes forest) : Run ρ Forest)

theorem BlindAnalyzer.steady {analyzer : Analyzer} (blind : BlindAnalyzer analyzer) :
    SteadyAnalyzer ρ analyzer :=
  ⟨fun forest => (blind.symbols forest).steady, fun forest => (blind.types forest).steady⟩

theorem steady_analyze (settings : Settings) {analyzer : Analyzer}
    (steady : SteadyAnalyzer ρ analyzer) (forest : Forest) :
    Steady (analyze settings analyzer forest : Run ρ Forest) := by
  have symbols : Steady (atDesk .buildSymbols (analyzer.buildSymbols forest) : Run ρ Unit) := by
    rw [atDesk_eq]
    exact (steady_call .buildSymbols).bind fun _ => steady.symbols forest
  have types : Steady (atDesk .checkTypes (analyzer.checkTypes forest) : Run ρ Forest) := by
    rw [atDesk_eq]
    exact (steady_call .checkTypes).bind fun _ => steady.types forest
  apply (steady_writeWhen _ _).bind
  intro _
  apply symbols.bind
  intro _
  apply (steady_writeWhen _ _).bind
  intro _
  apply types.bind
  intro checked
  exact (steady_writeWhen _ _).bind fun _ => steady_pure checked

/-- Code goes into a file of its own, and nothing about it goes into the listing. -/
theorem deaf_generate (settings : Settings) (generator : CodeGenerator) (path : Path)
    (forest : Forest) : Deaf (generate settings generator path forest : Run ρ Path) := by
  intro workspace listing
  simp only [generate_apply]
  generalize generator.generate forest path settings.traceCode = code
  obtain ⟨text, fault⟩ := code
  cases workspace.files.create path with
  | error refused => rfl
  | ok created => cases fault <;> rfl

theorem reports_generate (settings : Settings) (generator : CodeGenerator) (path : Path)
    (forest : Forest) :
    Keeps Workspace.reports (generate settings generator path forest : Run ρ Path) := by
  intro workspace
  rw [after, generate_apply]
  generalize generator.generate forest path settings.traceCode = code
  obtain ⟨text, fault⟩ := code
  cases workspace.files.create path with
  | error refused => rfl
  | ok created => cases fault <;> rfl

/-- The generation of code comes last, and a limit on the listing does not reach it. -/
theorem closing_generate (settings : Settings) (generator : CodeGenerator) (path : Path)
    (forest : Forest) :
    Closing (some <$> generate settings generator path forest : Run ρ (Option Path)) := by
  refine ⟨((deaf_generate settings generator path forest).map some).cuts, ?_⟩
  rw [map_eq_pure_bind]
  exact (reports_generate settings generator path forest).bind fun _ _ => rfl

/-- A plan whose parser is uniform and whose analyzer is steady. -/
def Orderly : Plan ρ → Prop
  | .scan => True
  | .parse parser => parser.Uniform
  | .analyze parser analyzer | .generate parser analyzer _ =>
    parser.Uniform ∧ SteadyAnalyzer ρ analyzer

theorem cuts_ofPlan (settings : Settings) (source : String) (codePath : Path) {plan : Plan ρ}
    (orderly : Orderly plan) : Cuts (ofPlan settings source codePath plan) := by
  cases plan with
  | scan => exact (steady_scan settings source).toLeading.bind fun _ => (steady_pure none).toClosing
  | parse parser =>
    exact (leading_parse settings source orderly).bind fun _ => (steady_pure none).toClosing
  | analyze parser analyzer =>
    apply (leading_parse settings source orderly.1).bind
    intro forest
    apply Steady.toClosing
    apply (steady_skips .analysis).bind
    intro skipped
    cases skipped with
    | true => exact steady_pure none
    | false => exact (steady_analyze settings orderly.2 forest).bind fun _ => steady_pure none
  | generate parser analyzer generator =>
    apply (leading_parse settings source orderly.1).bind
    intro forest
    apply (steady_skips .analysis).bind_closing
    intro skipped
    cases skipped with
    | true => exact (steady_pure none).toClosing
    | false =>
      apply (steady_analyze settings orderly.2 forest).bind_closing
      intro checked
      apply (steady_skips .codeGeneration).bind_closing
      intro skipped
      cases skipped with
      | true => exact (steady_pure none).toClosing
      | false => exact closing_generate settings generator codePath checked

end FrontEnd.Run
