import FrontEnd.Proofs.Compilation.Extension
import FrontEnd.Proofs.Compilation.Gating
import FrontEnd.Proofs.Scanner.Taking

/-! # What a run tells of

Every computation on a workspace adds to its journal, tells of certain topics only, and keeps the
entries about the flag balanced with the flag. This is a law of each step of a run, and sequencing
keeps it.
-/

namespace FrontEnd

open Journal

variable {ρ α β : Type}

namespace Desk

/-- Whoever uses a desk tells of the flag only. -/
theorem useAll_told (desk : Desk) (uses : List Use) :
    (∃ entries, (desk.useAll uses).journal = desk.journal ++ entries ∧
        ∀ entry ∈ entries, entry.topic = .flag) ∧
      balance .flag (desk.useAll uses).journal (desk.useAll uses).status.flagged =
        balance .flag desk.journal desk.status.flagged := by
  induction uses generalizing desk with
  | nil => exact ⟨⟨[], (List.append_nil _).symm, nofun⟩, rfl⟩
  | cons first rest ih =>
    obtain ⟨⟨entries, journal, topics⟩, balanced⟩ := ih (desk.use first)
    change (useAll (desk.use first) rest).journal = _ at journal
    cases first with
    | write text | moveTo line => exact ⟨⟨entries, journal, topics⟩, balanced⟩
    | flag =>
      refine ⟨⟨desk.status.flagEntries ++ entries, ?_, ?_⟩, ?_⟩
      · rw [← List.append_assoc]
        exact journal
      · exact fun entry member => (List.mem_append.mp member).elim
          (topic_of_mem_flagEntries entry) (topics entry)
      · exact balanced.trans (balance_flag desk.journal desk.status)

end Desk

namespace Run

/-- How the entries about the flag are balanced with the flag of a workspace. -/
def flagBalance (workspace : Workspace ρ) : Int :=
  balance .flag workspace.journal workspace.status.flagged

/-- What is added to the journal of a workspace tells of certain topics. -/
def AddsTo (topics : List Topic) (earlier later : List Entry) : Prop :=
  ∃ entries, later = earlier ++ entries ∧ ∀ entry ∈ entries, entry.topic ∈ topics

namespace AddsTo

variable {topics : List Topic} {earlier middle later : List Entry}

theorem refl (topics : List Topic) (journal : List Entry) : AddsTo topics journal journal :=
  ⟨[], (List.append_nil _).symm, nofun⟩

theorem trans (first : AddsTo topics earlier middle) (second : AddsTo topics middle later) :
    AddsTo topics earlier later := by
  obtain ⟨entries, rfl, here⟩ := first
  obtain ⟨more, rfl, there⟩ := second
  exact ⟨entries ++ more, List.append_assoc .., fun entry member =>
    (List.mem_append.mp member).elim (here entry) (there entry)⟩

theorem mono {others : List Topic} (adds : AddsTo topics earlier later) (wider : topics ⊆ others) :
    AddsTo others earlier later := by
  obtain ⟨entries, rfl, told⟩ := adds
  exact ⟨entries, rfl, fun entry member => wider (told entry member)⟩

theorem eq_of_nil (adds : AddsTo [] earlier later) : later = earlier := by
  obtain ⟨entries, rfl, told⟩ := adds
  cases entries with
  | nil => exact List.append_nil earlier
  | cons entry later => cases told entry (List.mem_cons_self ..)

/-- Nothing is added about other topics. -/
theorem about_eq (adds : AddsTo topics earlier later) {topic : Topic} (other : topic ∉ topics) :
    about topic later = about topic earlier := by
  obtain ⟨entries, rfl, told⟩ := adds
  have others : ∀ entry ∈ entries, entry.topic ≠ topic := by
    rintro entry member rfl
    exact other (told entry member)
  rw [about_append, about_of_others others, List.append_nil]

end AddsTo

/-- A computation that tells of certain topics only and keeps the flag balanced. -/
structure Tells (topics : List Topic) (work : Run ρ α) : Prop where
  adds (start) : AddsTo topics start.journal (after work start).journal
  flag : Keeps flagBalance work

/-- A computation that is followed by a value only has left all behind that there is at the end. -/
theorem after_bind_pure (work : Run ρ α) (value : β) (start : Workspace ρ) :
    after (work >>= fun _ => pure value) start = after work start :=
  @Keeps.after_bind ρ α β _ id (fun _ => pure value) (fun _ _ => rfl) work start

section

variable {topics : List Topic}

theorem Tells.bind {work : Run ρ α} {later : α → Run ρ β} (first : Tells topics work)
    (second : ∀ value, Tells topics (later value)) : Tells topics (work >>= later) where
  adds start := by
    have adds := first.adds start
    cases ran : work start with
    | ok value middle =>
      rw [after_of_ok ran] at adds
      rw [after, bind_of_ok ran]
      exact adds.trans ((second value).adds middle)
    | error failure last =>
      rw [after_of_error ran] at adds
      rwa [after_of_error (bind_of_error ran)]
  flag := first.flag.bind fun value => (second value).flag

/-- What follows a computation adds to what that has told. -/
theorem Tells.after_bind {later : α → Run ρ β} (second : ∀ value, Tells topics (later value))
    (work : Run ρ α) (start : Workspace ρ) :
    AddsTo topics (after work start).journal (after (work >>= later) start).journal := by
  cases ran : work start with
  | ok value middle =>
    rw [after_of_ok ran, after, bind_of_ok ran]
    exact (second value).adds middle
  | error failure last =>
    rw [after_of_error ran, after_of_error (bind_of_error ran)]
    exact .refl _ _

/-- What changes neither the journal nor the flag tells of nothing. -/
theorem tells_of_silent {work : Run ρ α} (journal : Keeps Workspace.journal work)
    (status : Keeps Workspace.status work) : Tells topics work where
  adds start := by
    rw [journal start]
    exact .refl _ _
  flag start := by
    rw [flagBalance, journal start, status start, flagBalance]

theorem tells_pure (value : α) : Tells topics (pure value : Run ρ α) :=
  tells_of_silent (fun _ => rfl) fun _ => rfl

theorem tells_call (stage : StageCall) : Tells topics (call stage : Run ρ Unit) :=
  tells_of_silent (fun _ => rfl) fun _ => rfl

theorem tells_write (text : String) : Tells topics (write text : Run ρ Unit) := by
  refine tells_of_silent (fun start => ?_) fun start => ?_
  · rw [after, write]
    cases start.listing.fits text <;> rfl
  · rw [after, write]
    cases start.listing.fits text <;> rfl

theorem tells_writeWhen (wanted : Bool) (text : String) :
    Tells topics (writeWhen wanted text : Run ρ Unit) := by
  cases wanted with
  | false => exact tells_pure ()
  | true => exact tells_write text

theorem tells_note {entry : Entry} (told : entry.topic ∈ topics) (other : entry.topic ≠ .flag) :
    Tells topics (note entry : Run ρ Unit) where
  adds _ := ⟨[entry], rfl, List.forall_mem_singleton.mpr told⟩
  flag _ := balance_append_others (List.forall_mem_singleton.mpr other) _ _

theorem tells_flag (told : .flag ∈ topics) : Tells topics (flag : Run ρ Unit) where
  adds start := by
    refine ⟨start.status.flagEntries, rfl, fun entry member => ?_⟩
    rwa [topic_of_mem_flagEntries entry member]
  flag start := balance_flag start.journal start.status

theorem tells_gate (activity : Activity) {work : Run ρ (Option Path)} (told : .gate ∈ topics)
    (tells : Tells topics work) : Tells topics (gate activity work) where
  adds start := by
    cases flagged : start.status.flagged with
    | true =>
      rw [after_of_ok (gate_of_flagged activity flagged)]
      exact ⟨[.skipping activity], rfl, List.forall_mem_singleton.mpr told⟩
    | false =>
      rw [after_congr (gate_of_clear activity flagged)]
      exact tells.adds start
  flag start := by
    cases flagged : start.status.flagged with
    | true =>
      rw [after_of_ok (gate_of_flagged activity flagged)]
      exact balance_append_others (List.forall_mem_singleton.mpr (by simp [Entry.topic])) _ _
    | false =>
      rw [after_congr (gate_of_clear activity flagged)]
      exact tells.flag start

/-- Work at a desk tells of the flag only. -/
theorem tells_onDesk {work : EStateM Fault Desk α} (proper : Desk.Proper work)
    (told : .flag ∈ topics) : Tells topics (onDesk work : Run ρ α) := by
  have left (start : Workspace ρ) :
      let desk := Desk.after work ⟨start.status, start.listing, start.journal⟩
      (after (onDesk work) start).journal = desk.journal ∧
        (after (onDesk work) start).status = desk.status := by
    rw [after, onDesk, Desk.after]
    dsimp only
    cases work ⟨start.status, start.listing, start.journal⟩ <;> exact ⟨rfl, rfl⟩
  constructor
  case adds =>
    intro start
    obtain ⟨uses, used⟩ := proper ⟨start.status, start.listing, start.journal⟩
    obtain ⟨⟨entries, journal, topics⟩, -⟩ := Desk.useAll_told _ uses
    refine ⟨entries, ?_, fun entry member => ?_⟩
    · rw [(left start).1, used, journal]
    · rwa [topics entry member]
  case flag =>
    intro start
    obtain ⟨uses, used⟩ := proper ⟨start.status, start.listing, start.journal⟩
    rw [flagBalance, (left start).1, (left start).2, used]
    exact (Desk.useAll_told _ uses).2

theorem tells_atDesk (stage : StageCall) {work : EStateM Fault Desk α} (proper : Desk.Proper work)
    (told : .flag ∈ topics) : Tells topics (atDesk stage work : Run ρ α) :=
  (tells_call stage).bind fun _ => tells_onDesk proper told

theorem tells_analyze (settings : Settings) {analyzer : Analyzer} (proper : analyzer.Proper)
    (forest : Forest) (told : .flag ∈ topics) :
    Tells topics (analyze settings analyzer forest : Run ρ Forest) := by
  apply (tells_writeWhen _ _).bind
  intro _
  apply (tells_atDesk _ (proper.symbols forest) told).bind
  intro _
  apply (tells_writeWhen _ _).bind
  intro _
  apply (tells_atDesk _ (proper.types forest) told).bind
  intro checked
  exact (tells_writeWhen _ _).bind fun _ => tells_pure checked

theorem tells_generate (settings : Settings) (generator : CodeGenerator) (path : Path)
    (forest : Forest) (told : .code ∈ topics) :
    Tells topics (generate settings generator path forest : Run ρ Path) := by
  have left (start : Workspace ρ) :
      let run := after (generate settings generator path forest) start
      run.status = start.status ∧ (run.journal = start.journal ∨
        run.journal = start.journal ++ [.generating path.text]) := by
    rw [after, generate_apply]
    cases start.files.create path with
    | error fault => exact ⟨rfl, .inl rfl⟩
    | ok created =>
      dsimp only
      cases (generator.generate forest path settings.traceCode).fault <;> exact ⟨rfl, .inr rfl⟩
  have other : ∀ entry ∈ [Entry.generating path.text], entry.topic ≠ .flag :=
    List.forall_mem_singleton.mpr (by simp [Entry.topic])
  constructor
  case adds =>
    intro start
    obtain ⟨-, same | added⟩ := left start
    · rw [same]
      exact .refl _ _
    · exact ⟨_, added, List.forall_mem_singleton.mpr told⟩
  case flag =>
    intro start
    obtain ⟨status, same | added⟩ := left start
    · rw [flagBalance, same, status, flagBalance]
    · rw [flagBalance, added, status, balance_append_others other, flagBalance]

end

/-! ## Scanning and parsing -/

section

variable (settings : Settings) (source : String) {parser : Parser ρ}

theorem after_transcribe (workspace : Workspace ρ) :
    after (transcribe settings source parser) workspace =
      take workspace (parser.parse (openTranscript settings source workspace)) := by
  rw [after, transcribe]
  cases (parser.parse (openTranscript settings source workspace)).session.scanner.fault <;> rfl

theorem tells_transcribe (proper : parser.Proper) {topics : List Topic}
    (told : [Topic.faults, .flag, .transcript] ⊆ topics) :
    Tells topics (transcribe settings source parser) where
  adds start := by
    obtain ⟨uses, used⟩ := proper (openTranscript settings source start)
    obtain ⟨entries, journal, topics⟩ := ((Session.Tells.refl _).useAll uses).told
    rw [after_transcribe, take, used]
    exact ⟨entries, journal, fun entry member => told (topics entry member)⟩
  flag start := by
    obtain ⟨uses, used⟩ := proper (openTranscript settings source start)
    rw [after_transcribe, take, used]
    exact ((Session.Tells.refl _).useAll uses).flag

theorem tells_accept {topics : List Topic} (verdict : .verdict ∈ topics) (flag : .flag ∈ topics)
    (result : Except OutOfMemory Forest) : Tells topics (accept result : Run ρ Forest) := by
  cases result with
  | ok forest => exact (tells_note verdict (by simp [Entry.topic])).bind fun _ => tells_pure forest
  | error failure =>
    exact (tells_note verdict (by simp [Entry.topic])).bind fun _ => (tells_write _).bind fun _ =>
      (tells_flag flag).bind fun _ => tells_pure Forest.empty

/-- The acceptance of a forest or of a failure is the one verdict on it. -/
theorem verdict_accept (result : Except OutOfMemory Forest) (start : Workspace ρ) :
    (about .verdict (after (accept result) start).journal).length =
      (about .verdict start.journal).length + 1 := by
  cases result with
  | ok forest =>
    change (about .verdict (start.journal ++ [.parsed forest.size])).length = _
    simp [about_cons, Entry.topic]
  | error failure =>
    let rest : Run ρ Forest := do
      write (failure.message ++ "\n")
      flag
      pure .empty
    let noted : Workspace ρ :=
      { start with journal := start.journal ++ [.parsingAbandoned failure] }
    have quiet : Tells [.flag] rest := (tells_write _).bind fun _ =>
      (tells_flag (by decide)).bind fun _ => tells_pure Forest.empty
    change (about .verdict (after rest noted).journal).length = _
    rw [(quiet.adds noted).about_eq (by decide)]
    simp [noted, about_cons, Entry.topic]

/-- The parse phase tells what its parser does, and then no more than one verdict. -/
theorem parse_told (parser : Parser ρ) (start : Workspace ρ) :
    let session :=
      openTranscript settings source { start with journal := start.journal ++ [.parsing] }
    let journal := (parser.parse session).session.journal
    let last := after (parse settings source parser) start
    AddsTo [.verdict, .flag] journal last.journal ∧
      (about .verdict last.journal).length ≤ (about .verdict journal).length + 1 := by
  intro session journal last
  let begun : Workspace ρ := { start with
    journal := start.journal ++ [.parsing]
    calls := start.calls ++ [.parse] }
  let later (result : Except OutOfMemory Forest) : Run ρ Forest := do
    let forest ← accept result
    writeWhen settings.traceParse ("\nSyntax tree:\n" ++ forest.outline)
    pure forest
  have shape : last = after (transcribe settings source parser >>= later) begun := by
    simp only [last, parse_eq]
    rfl
  have transcribed : (after (transcribe settings source parser) begun).journal = journal := by
    rw [after_transcribe]
    rfl
  have traced (topics : List Topic) (forest : Forest) : Tells topics (do
      writeWhen settings.traceParse ("\nSyntax tree:\n" ++ forest.outline)
      pure forest : Run ρ Forest) := (tells_writeWhen _ _).bind fun _ => tells_pure forest
  rw [shape, ← transcribed]
  constructor
  · apply Tells.after_bind
    intro result
    exact (tells_accept (by decide) (by decide) result).bind fun forest => traced _ forest
  · cases ran : transcribe settings source parser begun with
    | error failure stopped =>
      rw [after_of_error (bind_of_error ran), after_of_error ran]
      exact Nat.le_succ _
    | ok result taken =>
      have silent := (Tells.after_bind (traced []) (accept result) taken).about_eq
        (List.not_mem_nil (a := .verdict))
      rw [after, bind_of_ok ran, after_of_ok ran, ← verdict_accept result taken]
      exact Nat.le_of_eq (congrArg List.length silent)

theorem tells_parse (proper : parser.Proper) :
    Tells [.progress, .faults, .flag, .transcript, .verdict] (parse settings source parser) := by
  rw [parse_eq]
  apply (tells_note (by decide) (by decide)).bind
  intro _
  apply (tells_call _).bind
  intro _
  apply (tells_transcribe settings source proper (by decide)).bind
  intro result
  apply (tells_accept (by decide) (by decide) result).bind
  intro forest
  exact (tells_writeWhen _ _).bind fun _ => tells_pure forest

/-- What follows the transcript of a scan is how far the scan has come. -/
theorem tells_scannedTo {topics : List Topic} (told : .progress ∈ topics) :
    Tells topics (do note (.scannedTo (← get).status.line) : Run ρ Unit) where
  adds start := ⟨[.scannedTo start.status.line], rfl, List.forall_mem_singleton.mpr told⟩
  flag _ := balance_append_others (List.forall_mem_singleton.mpr (by simp [Entry.topic])) _ _

theorem tells_scan :
    Tells [.progress, .faults, .flag, .transcript] (scan settings source : Run ρ Unit) := by
  rw [scan_eq]
  apply (tells_writeWhen _ _).bind
  intro _
  apply (tells_transcribe settings source (draining_proper ρ) (by decide)).bind
  exact fun _ => tells_scannedTo (by decide)

/-- The scan phase tells of the tokens that are drained, and then of no fault. -/
theorem scan_told {start opened : Workspace ρ}
    (ready : writeWhen settings.traceScan scanHeader start = .ok () opened) :
    AddsTo [.progress]
      ((Parser.draining ρ).parse (openTranscript settings source opened)).session.journal
      (after (scan settings source) start).journal := by
  have transcribed : (after (transcribe settings source (.draining ρ)) opened).journal =
      ((Parser.draining ρ).parse (openTranscript settings source opened)).session.journal := by
    rw [after_transcribe]
    rfl
  rw [scan_eq, ← transcribed, after_congr (bind_of_ok ready)]
  exact Tells.after_bind (fun _ => tells_scannedTo (by decide)) _ opened

end

end Run

end FrontEnd
