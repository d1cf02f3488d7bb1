import FrontEnd.Proofs.Compilation.Limited
import FrontEnd.Proofs.Compilation.Onward

/-! # Later phases

Runs that differ in their last phase are compared. A later phase goes on where an earlier one ends,
so what the earlier one has written stays, and so does what its parser has reported. The generation
of code has nothing to write into the listing. If parsing leaves the error flag up, a later phase
does nothing but say so in the journal.
-/

namespace FrontEnd.Run

variable {ρ α β γ : Type}

/-! ## Gates -/

/-- Work behind a gate that errors close. -/
def gate (activity : Journal.Activity) (work : Run ρ (Option Path)) : Run ρ (Option Path) := do
  if ← skips activity then pure none else work

section

variable (activity : Journal.Activity) {work : Run ρ (Option Path)} {start : Workspace ρ}

theorem gate_of_clear (clear : start.status.flagged = false) :
    gate activity work start = work start := by
  obtain ⟨⟨line, flagged⟩, _, _, _, _, _⟩ := start
  cases clear
  rfl

theorem gate_of_flagged (flagged : start.status.flagged = true) :
    gate activity work start =
      .ok none { start with journal := start.journal ++ [.skipping activity] } := by
  obtain ⟨⟨line, _⟩, _, _, _, _, _⟩ := start
  cases flagged
  rfl

theorem keeps_gate {part : Workspace ρ → γ} (kept : Keeps part work)
    (unwritten : ∀ (workspace : Workspace ρ) journal,
      part { workspace with journal } = part workspace) :
    Keeps part (gate activity work) := by
  intro start
  cases flagged : start.status.flagged with
  | false =>
    rw [after, gate_of_clear activity flagged]
    exact kept start
  | true =>
    rw [after_of_ok (gate_of_flagged activity flagged)]
    exact unwritten start _

theorem steady_gate (steady : Steady work) : Steady (gate activity work) := by
  apply (steady_skips activity).bind
  intro skipped
  cases skipped with
  | true => exact steady_pure none
  | false => exact steady

end

/-- What every continuation keeps is as the first computation has left it. -/
theorem Keeps.after_bind {part : Workspace ρ → γ} {later : α → Run ρ β}
    (second : ∀ value, Keeps part (later value)) (work : Run ρ α) (start : Workspace ρ) :
    part (after (work >>= later) start) = part (after work start) := by
  cases ran : work start with
  | ok value last =>
    rw [after, bind_of_ok ran, after_of_ok ran]
    exact second value last
  | error failure last => rw [after_of_error (bind_of_error ran), after_of_error ran]

theorem after_congr {work other : Run ρ α} {start later : Workspace ρ}
    (same : work start = other later) : after work start = after other later := by
  rw [after, same, after]

/-! ## Beyond the parse phase -/

section

variable (settings : Settings) (codePath : Path) {analyzer : Analyzer} (generator : CodeGenerator)
  (forest : Forest)

/-- What a run up to the analysis does with a forest that has been parsed. -/
def analyzing (analyzer : Analyzer) : Run ρ (Option Path) := gate .analysis do
  let _ ← analyze settings analyzer forest
  pure none

/-- What a run up to the generation of code does with a forest that has been parsed. -/
def generating (analyzer : Analyzer) : Run ρ (Option Path) := gate .analysis do
  let checked ← analyze settings analyzer forest
  gate .codeGeneration (some <$> generate settings generator codePath checked)

/-- An analysis writes behind what is in the listing, and only the parser reports. -/
theorem steady_analyzing (steady : SteadyAnalyzer ρ analyzer) :
    Steady (analyzing settings forest analyzer : Run ρ (Option Path)) :=
  steady_gate _ <| (steady_analyze settings steady forest).bind fun _ => steady_pure none

/-- The generation of code writes nothing into the listing. -/
theorem listing_generating (start : Workspace ρ) :
    (after (generating settings codePath generator forest analyzer) start).listing =
      (after (analyzing settings forest analyzer) start).listing := by
  unfold generating analyzing
  cases flagged : start.status.flagged with
  | true => rw [after, gate_of_flagged _ flagged, after, gate_of_flagged _ flagged]
  | false =>
    simp only [after, gate_of_clear _ flagged]
    have silent (checked : Forest) : Keeps Workspace.listing
        (gate .codeGeneration (some <$> generate settings generator codePath checked) :
          Run ρ (Option Path)) :=
      keeps_gate _ ((deaf_generate settings generator codePath checked).map some).keeps fun _ _ => rfl
    exact (Keeps.after_bind silent _ start).trans (Keeps.after_bind (fun _ _ => rfl) _ start).symm

theorem reports_generating (steady : SteadyAnalyzer ρ analyzer) :
    Keeps Workspace.reports
      (generating settings codePath generator forest analyzer : Run ρ (Option Path)) := by
  refine keeps_gate _ ((steady_analyze settings steady forest).reports.bind fun checked => ?_)
    fun _ _ => rfl
  exact keeps_gate _ (closing_generate settings generator codePath checked).reports fun _ _ => rfl

end

/-- How runs up to the later phases go on from the run up to the parse phase. -/
structure Extends (run : Phase → Run ρ (Option Path)) (start : Workspace ρ) : Prop where
  /-- The analysis writes behind what parsing has written. -/
  continued : ∃ more, (after (run .analyze) start).listing.content =
    (after (run .parse) start).listing.content ++ more
  /-- The generation of code writes nothing into the listing. -/
  unlisted : (after (run .generate) start).listing = (after (run .analyze) start).listing
  /-- Only the parser reports. -/
  reports : (after (run .analyze) start).reports = (after (run .parse) start).reports ∧
    (after (run .generate) start).reports = (after (run .parse) start).reports
  /-- Where parsing leaves the flag up, a later phase has nothing to do. -/
  closed : (after (run .parse) start).status.flagged = true →
    ∃ last, run .parse start = .ok none last ∧ ∀ phase ∈ [Phase.analyze, .generate],
      run phase start = .ok none { last with journal := last.journal ++ [.skipping .analysis] }

/-- With a proper parser, a steady analyzer and any code generator, later phases extend earlier
ones. -/
theorem extends_ofStages {parser : Parser ρ} {analyzer : Analyzer} (generator : CodeGenerator)
    (proper : parser.Proper) (steady : SteadyAnalyzer ρ analyzer) (settings : Settings)
    (source : String) (codePath : Path) {start : Workspace ρ}
    (unlimited : start.listing.limit = none) :
    Extends (fun phase => ofStages ⟨some parser, some analyzer, some generator⟩
      { settings with phase } source codePath) start := by
  obtain ⟨forest, parsed, done, onward⟩ := completes_parse settings source proper start unlimited
  let run (phase : Phase) : Run ρ (Option Path) :=
    ofStages ⟨some parser, some analyzer, some generator⟩ { settings with phase } source codePath
  -- All three parse alike and then go their own ways.
  have parses : run .parse start = .ok none parsed := bind_of_ok done
  have analyzes : run .analyze start = analyzing settings forest analyzer parsed := bind_of_ok done
  have generates : run .generate start =
      generating settings codePath generator forest analyzer parsed := bind_of_ok done
  have left : after (run .parse) start = parsed := after_of_ok parses
  have left_analyze := after_congr analyzes
  have left_generate := after_congr generates
  have analysis := steady_analyzing settings forest steady
  constructor
  case continued =>
    rw [left, left_analyze]
    exact (analysis.cuts parsed (onward.unlimited unlimited)).grows.content
  case unlisted =>
    rw [left_generate, left_analyze]
    exact listing_generating settings codePath generator forest parsed
  case reports =>
    rw [left, left_generate, left_analyze]
    exact ⟨analysis.reports parsed, reports_generating settings codePath generator forest steady parsed⟩
  case closed =>
    rw [left]
    intro flagged
    refine ⟨parsed, parses, ?_⟩
    rw [List.forall_mem_cons, List.forall_mem_singleton]
    exact ⟨analyzes.trans (gate_of_flagged _ flagged), generates.trans (gate_of_flagged _ flagged)⟩

end FrontEnd.Run
