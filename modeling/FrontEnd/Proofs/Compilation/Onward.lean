import FrontEnd.Proofs.Compilation.Phases
import FrontEnd.Proofs.Compilation.Proper
import FrontEnd.Proofs.Listing.Capped

/-! # Phases with proper stages

With proper stages and a listing that is never full, scanning and parsing always come to their end,
and an analysis stops only on a fault of its own. Nothing before the generation of code lowers the
flag or touches the files.
-/

namespace FrontEnd

variable {ρ α β : Type}

/-- A workspace that goes on from another by calls of stages, with the files as they were. -/
structure Workspace.Onward (calls : List StageCall) (earlier later : Workspace ρ) : Prop where
  calls : later.calls = earlier.calls ++ calls
  files : later.files = earlier.files
  unlimited : earlier.listing.limit = none → later.listing.limit = none
  flagged : earlier.status.flagged = true → later.status.flagged = true

namespace Workspace.Onward

variable {calls more : List StageCall} {earlier middle later : Workspace ρ}

theorem trans (first : earlier.Onward calls middle) (second : middle.Onward more later) :
    earlier.Onward (calls ++ more) later where
  calls := by rw [second.calls, first.calls, List.append_assoc]
  files := second.files.trans first.files
  unlimited := second.unlimited ∘ first.unlimited
  flagged := second.flagged ∘ first.flagged

end Workspace.Onward

namespace Run

/-- A computation that comes to its end by certain calls, as long as its listing is never full. -/
def Completes (calls : List StageCall) (work : Run ρ α) : Prop :=
  ∀ start : Workspace ρ, start.listing.limit = none →
    ∃ value last, work start = .ok value last ∧ start.Onward calls last

theorem Completes.bind {calls more : List StageCall} {work : Run ρ α} {later : α → Run ρ β}
    (first : Completes calls work) (second : ∀ value, Completes more (later value)) :
    Completes (calls ++ more) (work >>= later) := by
  intro start unlimited
  obtain ⟨value, middle, ran, onward⟩ := first start unlimited
  obtain ⟨result, last, ran', onward'⟩ := second value middle (onward.unlimited unlimited)
  exact ⟨result, last, (bind_of_ok ran).trans ran', onward.trans onward'⟩

theorem completes_pure (value : α) : Completes [] (pure value : Run ρ α) := fun start _ =>
  ⟨value, start, rfl, (List.append_nil _).symm, rfl, id, id⟩

theorem completes_note (entry : Journal.Entry) : Completes [] (note entry : Run ρ Unit) :=
  fun start _ => ⟨(), _, rfl, (List.append_nil start.calls).symm, rfl, id, id⟩

theorem completes_call (stage : StageCall) : Completes [stage] (call stage : Run ρ Unit) :=
  fun _ _ => ⟨(), _, rfl, rfl, rfl, id, id⟩

theorem completes_flag : Completes [] (flag : Run ρ Unit) :=
  fun start _ => ⟨(), _, rfl, (List.append_nil start.calls).symm, rfl, id, fun _ => rfl⟩

theorem completes_writeWhen (wanted : Bool) (text : String) :
    Completes [] (writeWhen wanted text : Run ρ Unit) := by
  cases wanted with
  | false => exact completes_pure ()
  | true =>
    intro start unlimited
    exact ⟨(), _, write_unlimited unlimited text, (List.append_nil _).symm, rfl, id, id⟩

theorem completes_write (text : String) : Completes [] (write text : Run ρ Unit) :=
  completes_writeWhen true text

theorem free_openTranscript (settings : Settings) (source : String) {workspace : Workspace ρ}
    (unlimited : workspace.listing.limit = none) :
    (openTranscript settings source workspace).scanner.Free := by
  obtain ⟨sound, opened, -⟩ := openTranscript_scanner settings source workspace
  exact ⟨sound, (congrArg Listing.limit opened).trans unlimited⟩

/-- A proper parser cannot stop its transcript. -/
theorem free_parse {parser : Parser ρ} (proper : parser.Proper)
    {session : Session (Transcriber Lexer)} (free : session.scanner.Free) :
    (parser.parse session).session.scanner.Free := by
  obtain ⟨uses, used⟩ := proper session
  rw [used]
  exact Session.free_useAll free uses

theorem completes_transcribe (settings : Settings) (source : String) {parser : Parser ρ}
    (proper : parser.Proper) : Completes [] (transcribe settings source parser) := by
  intro start unlimited
  have free := free_openTranscript settings source unlimited
  have later := free_parse proper free
  obtain ⟨uses, used⟩ := proper (openTranscript settings source start)
  refine ⟨_, _, transcribe_of_sound rfl later.sound, ?_⟩
  constructor
  case calls => exact (List.append_nil start.calls).symm
  case files => rfl
  case unlimited => exact fun _ => later.unlimited
  case flagged =>
    intro flagged
    simp only [take, used]
    exact (Session.flagged_useAll_iff free uses).mpr (.inl flagged)

theorem completes_accept (result : Except OutOfMemory Forest) :
    Completes [] (accept result : Run ρ Forest) := by
  cases result with
  | ok forest => exact (completes_note _).bind fun _ => completes_pure forest
  | error failure =>
    exact (completes_note _).bind fun _ => (completes_write _).bind fun _ =>
      completes_flag.bind fun _ => completes_pure Forest.empty

/-- The parse phase calls the parser and comes to its end, whatever the parser has come to. -/
theorem completes_parse (settings : Settings) (source : String) {parser : Parser ρ}
    (proper : parser.Proper) : Completes [.parse] (parse settings source parser) := by
  rw [parse_eq]
  apply (completes_note _).bind
  intro _
  apply (completes_call .parse).bind
  intro _
  apply (completes_transcribe settings source proper).bind
  intro result
  apply (completes_accept result).bind
  intro forest
  exact (completes_writeWhen _ _).bind fun _ => completes_pure forest

theorem accept_run (result : Except OutOfMemory Forest) {start : Workspace ρ}
    (unlimited : start.listing.limit = none) :
    ∃ last, accept result start = .ok (result.toOption.getD .empty) last ∧
      last.listing.limit = none ∧
      (last.status.flagged = true ↔
        start.status.flagged = true ∨ ∃ failure, result = .error failure) ∧
      ∀ failure, result = .error failure →
        last.listing = start.listing.write (failure.message ++ "\n") := by
  cases result with
  | ok forest => exact ⟨_, rfl, unlimited, by simp, by simp⟩
  | error failure =>
    let text := failure.message ++ "\n"
    let noted : Workspace ρ :=
      { start with journal := start.journal ++ [.parsingAbandoned failure] }
    have room : noted.listing.limit = none := unlimited
    have written := write_unlimited room text
    have ran : accept (.error failure) start = (flag >>= fun _ => pure .empty) _ :=
      (bind_of_ok rfl).trans (bind_of_ok written)
    refine ⟨_, ran, unlimited, ?_, ?_⟩
    · simp [Status.flag]
    · rintro _ ⟨rfl⟩
      rfl

/-- Apart from what the parser did, only a lack of memory raises the flag in the parse phase. Then
its message is in the listing, behind the transcript. -/
theorem parse_run (settings : Settings) (source : String) {parser : Parser ρ}
    (proper : parser.Proper) {start : Workspace ρ} (unlimited : start.listing.limit = none) :
    let session :=
      openTranscript settings source { start with journal := start.journal ++ [.parsing] }
    let parsed := parser.parse session
    ∃ last, parse settings source parser start = .ok (parsed.result.toOption.getD .empty) last ∧
      start.Onward [.parse] last ∧
      (last.status.flagged = true ↔
        parsed.session.status.flagged = true ∨ ∃ failure, parsed.result = .error failure) ∧
      ∀ failure, parsed.result = .error failure →
        (parsed.session.scanner.listing.write (failure.message ++ "\n")).Grows last.listing := by
  intro session parsed
  obtain ⟨forest, last, ran, onward⟩ := completes_parse settings source proper start unlimited
  have opened : session.scanner.Free := free_openTranscript settings source unlimited
  have free := free_parse proper opened
  let begun : Workspace ρ := { start with
    journal := start.journal ++ [.parsing]
    calls := start.calls ++ [.parse] }
  have transcribed :
      transcribe settings source parser begun = .ok parsed.result (take begun parsed) :=
    transcribe_of_sound rfl free.sound
  have room : (take begun parsed).listing.limit = none := free.unlimited
  obtain ⟨middle, accepted, unlimited', raised, written⟩ := accept_run parsed.result room
  have traced := writeWhen_unlimited unlimited' settings.traceParse
    ("\nSyntax tree:\n" ++ (parsed.result.toOption.getD .empty).outline)
  have done := ran
  rw [parse_eq] at ran
  change (transcribe settings source parser >>= fun result => do
      let forest ← accept result
      writeWhen settings.traceParse ("\nSyntax tree:\n" ++ forest.outline)
      pure forest) begun = _ at ran
  rw [bind_of_ok transcribed, bind_of_ok accepted, bind_of_ok traced] at ran
  cases ran
  refine ⟨_, done, onward, raised, fun failure failed => ?_⟩
  have message : middle.listing = parsed.session.scanner.listing.write (failure.message ++ "\n") :=
    written failure failed
  rw [← message]
  dsimp only
  split
  · exact Listing.grows_write unlimited' _
  · exact .refl _

theorem draining_proper (ρ : Type) : (Parser.draining ρ).Proper :=
  fun session => session.drain_used

/-- The scan phase calls no stage. -/
theorem completes_scan (settings : Settings) (source : String) :
    Completes [] (scan settings source : Run ρ Unit) := by
  rw [scan_eq]
  apply (completes_writeWhen _ _).bind
  intro _
  apply (completes_transcribe settings source (draining_proper ρ)).bind
  intro _ start _
  exact ⟨(), _, rfl, (List.append_nil start.calls).symm, rfl, id, id⟩

/-- Proper work at the desk is one call, whether or not it fails. -/
theorem onward_atDesk {stage : StageCall} {work : EStateM Fault Desk α} (proper : Desk.Proper work)
    (start : Workspace ρ) : start.Onward [stage] (after (atDesk stage work) start) := by
  let desk : Desk := ⟨start.status, start.listing, start.journal⟩
  obtain ⟨uses, left⟩ := proper desk
  have last : after (atDesk stage work) start =
      { start with
        status := (Desk.after work desk).status
        listing := (Desk.after work desk).listing
        journal := (Desk.after work desk).journal
        calls := start.calls ++ [stage] } := by
    rw [atDesk_eq]
    change after (onDesk work) { start with calls := start.calls ++ [stage] } = _
    simp only [after, onDesk, Desk.after, desk]
    cases work ⟨start.status, start.listing, start.journal⟩ <;> rfl
  rw [last, left]
  constructor
  case calls => rfl
  case files => rfl
  case unlimited => exact (Desk.limit_useAll desk uses).trans
  case flagged => exact fun flagged => (Desk.flagged_useAll desk uses).mpr (.inl flagged)

/-- A computation that makes certain calls and then comes to its end, or stops on a fault of what it
called, as long as its listing is never full. -/
structure Attempts (calls : List StageCall) (work : Run ρ α) : Prop where
  onward (start : Workspace ρ) : start.listing.limit = none → start.Onward calls (after work start)
  failure (start : Workspace ρ) {failure last} : start.listing.limit = none →
    work start = .error failure last → ∃ fault, failure = .listingNotWritten fault

theorem Completes.attempts {calls : List StageCall} {work : Run ρ α}
    (completes : Completes calls work) : Attempts calls work where
  onward start unlimited := by
    obtain ⟨value, last, ran, onward⟩ := completes start unlimited
    rwa [after_of_ok ran]
  failure start failure last unlimited stopped := by
    obtain ⟨value, last, ran, onward⟩ := completes start unlimited
    rw [ran] at stopped
    cases stopped

theorem Completes.bind_attempts {calls more : List StageCall} {work : Run ρ α} {later : α → Run ρ β}
    (first : Completes calls work) (second : ∀ value, Attempts more (later value)) :
    Attempts (calls ++ more) (work >>= later) where
  onward start unlimited := by
    obtain ⟨value, middle, ran, onward⟩ := first start unlimited
    rw [after, bind_of_ok ran]
    exact onward.trans ((second value).onward middle (onward.unlimited unlimited))
  failure start failure last unlimited stopped := by
    obtain ⟨value, middle, ran, onward⟩ := first start unlimited
    rw [bind_of_ok ran] at stopped
    exact (second value).failure middle (onward.unlimited unlimited) stopped

theorem attempts_atDesk {stage : StageCall} {work : EStateM Fault Desk α}
    (proper : Desk.Proper work) : Attempts [stage] (atDesk stage work : Run ρ α) where
  onward start _ := onward_atDesk proper start
  failure start failure last _ stopped := by
    rw [atDesk_eq] at stopped
    change onDesk work { start with calls := start.calls ++ [stage] } = _ at stopped
    simp only [onDesk] at stopped
    split at stopped
    · cases stopped
    · cases stopped
      exact ⟨_, rfl⟩

/-- An attempt can be followed by what cannot stop. -/
theorem Attempts.bind_completes {calls : List StageCall} {work : Run ρ α} {later : α → Run ρ β}
    (first : Attempts calls work) (second : ∀ value, Completes [] (later value)) :
    Attempts calls (work >>= later) where
  onward start unlimited := by
    have onward := first.onward start unlimited
    cases ran : work start with
    | error failure last =>
      rw [after_of_error ran] at onward
      rwa [after_of_error (bind_of_error ran)]
    | ok value middle =>
      rw [after_of_ok ran] at onward
      rw [after, bind_of_ok ran, ← List.append_nil calls]
      exact onward.trans ((second value).attempts.onward middle (onward.unlimited unlimited))
  failure start failure last unlimited stopped := by
    have onward := first.onward start unlimited
    cases ran : work start with
    | error failure last =>
      rw [bind_of_error ran] at stopped
      cases stopped
      exact first.failure start unlimited ran
    | ok value middle =>
      rw [after_of_ok ran] at onward
      rw [bind_of_ok ran] at stopped
      exact (second value).attempts.failure middle (onward.unlimited unlimited) stopped

/-- Code is generated if its file can be created, and nothing is done if it cannot. -/
theorem generate_run (settings : Settings) (generator : CodeGenerator) (path : Path)
    (forest : Forest) (start : Workspace ρ) :
    let run := (some <$> generate settings generator path forest : Run ρ (Option Path)) start
    (∃ fault, (start.files.create path).isOk = false ∧
        run = .error (.codeNotCreated path fault) start) ∨
      ∃ last, (start.files.create path).isOk = true ∧
        (run = .ok (some path) last ∨ ∃ fault, run = .error (.codeNotWritten path fault) last) ∧
        last.calls = start.calls ++ [.generate] ∧ last.status = start.status := by
  intro run
  have generated := generate_apply settings generator path forest start
  have run_eq : run = EStateM.map some (generate settings generator path forest) start := rfl
  rw [run_eq, EStateM.map, generated]
  cases start.files.create path with
  | error fault => exact .inl ⟨fault, rfl, rfl⟩
  | ok created =>
    obtain ⟨location, files⟩ := created
    dsimp only
    cases (generator.generate forest path settings.traceCode).fault with
    | none => exact .inr ⟨_, rfl, .inl rfl, rfl, rfl⟩
    | some fault => exact .inr ⟨_, rfl, .inr ⟨fault, rfl⟩, rfl, rfl⟩

end Run

end FrontEnd
