import FrontEnd.Proofs.Journal.Topic
import FrontEnd.Proofs.Scanner.Use

/-! # What is taken from a scanner

A recorder hands on the tokens of another scanner and keeps them. A uniform parser cannot tell, so
what it takes from a session is what it leaves in a recorder. However a session is used, its journal
follows what is taken. The entries of a raised flag and of a stopped transcript balance the flag and
the fault that they are about.
-/

namespace FrontEnd

open Journal

variable {σ : Type}

/-- A scanner together with what was taken from it. -/
structure Recorder (σ : Type) where
  inner : σ
  taken : List Taking

namespace Recorder

def next [Scanner σ] (recorder : Recorder σ) (status : Status) : Pull (Recorder σ) :=
  let pulled := Scanner.next recorder.inner status
  ⟨pulled.token, ⟨pulled.scanner, recorder.taken ++ [⟨pulled.token, status.flagged⟩]⟩,
    pulled.status, pulled.entries⟩

instance [Scanner σ] : Scanner (Recorder σ) where
  next := next

instance [FiniteScanner σ] : FiniteScanner (Recorder σ) where
  remaining recorder := FiniteScanner.remaining recorder.inner
  remaining_next recorder status more :=
    FiniteScanner.remaining_next recorder.inner status more

end Recorder

namespace Session

/-- A session of which nothing was kept so far. -/
def recording (session : Session σ) : Session (Recorder σ) :=
  ⟨⟨session.scanner, []⟩, session.status, session.journal⟩

/-- A session without what was kept of it. -/
def bare (session : Session (Recorder σ)) : Session σ :=
  ⟨session.scanner.inner, session.status, session.journal⟩

/-- A session and the same session, recorded. -/
def Recorded (session : Session σ) (recorded : Session (Recorder σ)) : Prop :=
  session = recorded.bare

/-- Nothing that is done with a session tells whether it is recorded. -/
theorem recorded_simulation [Scanner σ] : Simulation (@Recorded σ) where
  status related := by rw [related]; rfl
  token related := by rw [related]; rfl
  pull related := by rw [related]; rfl
  amend _ _ related := by rw [related]; rfl

end Session

namespace Parser

variable {ρ : Type}

def takings [FiniteScanner σ] (parser : Parser ρ) (session : Session σ) : List Taking :=
  (parser.parse session.recording).session.scanner.taken

/-- A uniform parser does the same over a session that is recorded. -/
theorem Uniform.bare_parse [FiniteScanner σ] {parser : Parser ρ} (uniform : parser.Uniform)
    (session : Session σ) :
    (parser.parse session).session = (parser.parse session.recording).session.bare := by
  have related : session.Recorded session.recording := rfl
  exact (uniform.alike Session.recorded_simulation related).session

end Parser

namespace Session

/-! ### Along the use of a session -/

/-- What a token is to be told of is what a lexer tells of it. -/
theorem told_observe (token : Token) (status : Status) :
    (Lexer.observe token status).2 = (⟨token, status.flagged⟩ : Taking).told := by
  obtain ⟨line, flagged⟩ := status
  unfold Lexer.observe Taking.told
  cases fault : token.kind.isFault <;> cases flagged <;>
    simp [Taking.isFault, fault, Taking.report, Status.flagEntries, Status.moveTo]

/-- What recording a token adds to the journal, and what it does to the transcript. -/
def Stops (fault : Option Fault) : List Entry → Option Fault → Prop
  | [], later => later = fault
  | ended, later => ended = [.transcriptStopped .listingFull] ∧ fault = none ∧ later = some .listingFull

theorem stops_record (transcriber : Transcriber σ) (token : Token) :
    Stops transcriber.fault (transcriber.record token).2 (transcriber.record token).1.fault := by
  cases broken : transcriber.fault with
  | some fault =>
    rw [Transcriber.record_stopped broken]
    exact broken
  | none =>
    rw [Transcriber.record_sound broken]
    split
    · exact broken
    · exact ⟨rfl, rfl, rfl⟩

theorem topic_of_stops {fault later : Option Fault} {ended : List Entry}
    (stops : Stops fault ended later) : ∀ entry ∈ ended, entry.topic = .transcript := by
  cases ended with
  | nil => nofun
  | cons first more =>
    rw [stops.1]
    exact List.forall_mem_singleton.mpr rfl

/-- The entry of a stopped transcript balances its fault. -/
theorem balance_stops {fault later : Option Fault} {ended : List Entry}
    (stops : Stops fault ended later) (journal : List Entry) :
    balance .transcript (journal ++ ended) later.isSome =
      balance .transcript journal fault.isSome := by
  cases ended with
  | nil => rw [List.append_nil, show later = fault from stops]
  | cons first more =>
    obtain ⟨only, sound, broken⟩ := stops
    rw [only, sound, broken, balance, about_append, balance]
    simp [about_cons, Entry.topic]

/-- A pull tells of its token, and of the end of the transcript if it ends with that token. -/
theorem pull_told (session : Session (Transcriber Lexer)) :
    let taking : Taking := ⟨session.pull.1, session.status.flagged⟩
    ∃ ended, session.pull.2.journal = session.journal ++ (taking.told ++ ended) ∧
      session.pull.2.status.flagged = (session.status.flagged || taking.isFault) ∧
      Stops session.scanner.fault ended session.pull.2.scanner.fault := by
  intro taking
  let pulled := Scanner.next session.scanner.inner session.status
  refine ⟨((session.advance pulled).scanner.record pulled.token).2, ?_, ?_, ?_⟩
  · rw [← told_observe, ← List.append_assoc, pull_transcriber]
    rfl
  · rw [pull_transcriber]
    exact Lexer.flagged_observe _ _
  · rw [pull_transcriber]
    exact stops_record _ _

/-- What the use of a session, from a start on, tells of. -/
structure Tells (start session : Session (Transcriber Lexer)) : Prop where
  told : ∃ entries, session.journal = start.journal ++ entries ∧
    ∀ entry ∈ entries, entry.topic ∈ [Topic.faults, .flag, .transcript]
  flag : balance .flag session.journal session.status.flagged =
    balance .flag start.journal start.status.flagged
  transcript : balance .transcript session.journal session.scanner.fault.isSome =
    balance .transcript start.journal start.scanner.fault.isSome

namespace Tells

variable {start session : Session (Transcriber Lexer)}

theorem refl (session : Session (Transcriber Lexer)) : Tells session session :=
  ⟨⟨[], (List.append_nil _).symm, nofun⟩, rfl, rfl⟩

theorem pull (tells : Tells start session) : Tells start session.pull.2 := by
  obtain ⟨⟨entries, journal, topics⟩, flag, transcript⟩ := tells
  obtain ⟨ended, added, raised, stops⟩ := pull_told session
  generalize taken_eq : (⟨session.pull.1, session.status.flagged⟩ : Taking) = taking at added raised
  have told := @Taking.topic_of_mem_told taking
  have closes := topic_of_stops stops
  constructor
  case told =>
    refine ⟨entries ++ (taking.told ++ ended), by rw [added, journal, List.append_assoc], ?_⟩
    intro entry member
    rw [List.mem_append, List.mem_append] at member
    obtain before | now | closing := member
    · exact topics entry before
    · obtain topic | topic := told entry now <;> simp [topic]
    · simp [closes entry closing]
  case flag =>
    have flagged : taking.flagged = session.status.flagged := by rw [← taken_eq]
    rw [added, raised, ← List.append_assoc, ← flagged,
      balance_append_others (fun entry member => by rw [closes entry member]; decide),
      taking.balance_told, flagged, flag]
  case transcript =>
    have silent : ∀ entry ∈ taking.told, entry.topic ≠ .transcript := by
      intro entry member
      obtain topic | topic := told entry member <;> simp [topic]
    rw [added, ← List.append_assoc, balance_stops stops, balance_append_others silent, transcript]

theorem use (tells : Tells start session) (step : Use) : Tells start (session.use step) := by
  cases step with
  | pull => exact tells.pull
  | moveTo line => exact ⟨tells.told, tells.flag, tells.transcript⟩
  | flag =>
    obtain ⟨⟨entries, journal, topics⟩, flag, transcript⟩ := tells
    constructor
    case told =>
      refine ⟨entries ++ session.status.flagEntries, ?_, ?_⟩
      · rw [← List.append_assoc, ← journal]
        rfl
      · intro entry member
        obtain before | raised := List.mem_append.mp member
        · exact topics entry before
        · simp [topic_of_mem_flagEntries entry raised]
    case flag => exact (balance_flag session.journal session.status).trans flag
    case transcript =>
      rw [← transcript]
      exact balance_append_others (fun entry member => by
        rw [topic_of_mem_flagEntries entry member]; decide) _ _

theorem useAll (tells : Tells start session) (uses : List Use) :
    Tells start (session.useAll uses) := by
  induction uses generalizing session with
  | nil => exact tells
  | cons first rest ih => exact ih (tells.use first)

end Tells

/-- The journal of a recorded session follows what is taken from it. -/
theorem follows_use {session : Session (Recorder (Transcriber Lexer))}
    (follows : Follows session.scanner.taken session.journal) (step : Use) :
    Follows (session.use step).scanner.taken (session.use step).journal := by
  cases step with
  | pull =>
    obtain ⟨ended, added, -, stops⟩ := pull_told session.bare
    have journal : session.pull.2.journal = session.bare.pull.2.journal := rfl
    rw [use, journal, added, ← List.append_assoc]
    refine (follows.taking ⟨session.pull.1, session.status.flagged⟩).append ended ?_
    exact fun entry member => by rw [topic_of_stops stops entry member]; decide
  | moveTo line => exact follows
  | flag =>
    exact follows.append _ fun entry member => by rw [topic_of_mem_flagEntries entry member]; decide

theorem follows_useAll {session : Session (Recorder (Transcriber Lexer))}
    (follows : Follows session.scanner.taken session.journal) (uses : List Use) :
    Follows (session.useAll uses).scanner.taken (session.useAll uses).journal := by
  induction uses generalizing session with
  | nil => exact follows
  | cons first rest ih => exact ih (follows_use follows first)

end Session

end FrontEnd
