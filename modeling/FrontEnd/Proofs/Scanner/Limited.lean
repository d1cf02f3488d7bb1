import FrontEnd.Proofs.Listing.Capped
import FrontEnd.Proofs.Scanner.Simulation
import FrontEnd.Scanner.Transcriber

/-! # Transcripts under a limit

A session whose transcript goes into a limited listing shadows the session that writes without a
limit. They are the same until the limit is passed. From then on the limited one writes nothing and
keeps the fault, but it still hands out the same tokens.
-/

namespace FrontEnd

variable {σ : Type} {limit : Nat}

namespace Transcriber

def capped (limit : Nat) (transcriber : Transcriber σ) : Transcriber σ :=
  { transcriber with listing := transcriber.listing.capped limit }

/-- A transcriber that has written what a token brings into the listing. -/
def recorded (transcriber : Transcriber σ) (token : Token) : Transcriber σ :=
  { transcriber with
    listing := transcriber.listing.write (transcriber.rowsFor token)
    pending := transcriber.pending.dropWhile (isDue token) }

theorem record_stopped {transcriber : Transcriber σ} {fault : Fault}
    (stopped : transcriber.fault = some fault) (token : Token) :
    transcriber.record token = (transcriber, []) := by
  simp only [record, stopped, Option.isSome_some, ↓reduceIte]

theorem record_sound {transcriber : Transcriber σ} (sound : transcriber.fault = none)
    (token : Token) :
    transcriber.record token =
      if transcriber.listing.fits (transcriber.rowsFor token) then (transcriber.recorded token, [])
      else ({ transcriber.recorded token with fault := some .listingFull },
        [.transcriptStopped .listingFull]) := by
  simp only [record, recorded, sound, Option.isSome_none, Bool.false_eq_true, ↓reduceIte]

theorem record_unlimited {transcriber : Transcriber σ} (sound : transcriber.fault = none)
    (unlimited : transcriber.listing.limit = none) (token : Token) :
    transcriber.record token = (transcriber.recorded token, []) := by
  rw [record_sound sound]
  simp only [Listing.fits, unlimited, ↓reduceIte]

theorem recorded_capped {transcriber : Transcriber σ}
    (unlimited : transcriber.listing.limit = none) (token : Token) :
    (transcriber.capped limit).recorded token = (transcriber.recorded token).capped limit := by
  simp only [recorded, capped, Listing.capped_write unlimited]
  rfl

/-- Under a limit a token is recorded as without one, or it stops the transcript. -/
theorem record_capped {transcriber : Transcriber σ} (sound : transcriber.fault = none)
    (unlimited : transcriber.listing.limit = none)
    (within : transcriber.listing.Within limit) (token : Token) :
    (transcriber.capped limit).record token =
      if (transcriber.recorded token).listing.Within limit then
        ((transcriber.recorded token).capped limit, [])
      else
        ({ (transcriber.recorded token).capped limit with fault := some .listingFull },
          [.transcriptStopped .listingFull]) := by
  have fits := Listing.fits_capped unlimited within (transcriber.rowsFor token)
  rw [record_sound (show (transcriber.capped limit).fault = none from sound),
    recorded_capped unlimited]
  change (if (transcriber.listing.capped limit).fits (transcriber.rowsFor token) = true then _ else _) = _
  simp only [fits, decide_eq_true_eq]
  rfl

end Transcriber

namespace Session

def capped (limit : Nat) (session : Session (Transcriber σ)) : Session (Transcriber σ) :=
  { session with scanner := session.scanner.capped limit }

/-- A session whose transcriber has taken a token from the scanner behind it. -/
def advance (session : Session (Transcriber σ)) (pulled : Pull σ) : Session (Transcriber σ) :=
  ⟨{ session.scanner with inner := pulled.scanner }, pulled.status,
    session.journal ++ pulled.entries⟩

def record (session : Session (Transcriber σ)) (token : Token) : Session (Transcriber σ) :=
  ⟨(session.scanner.record token).1, session.status,
    session.journal ++ (session.scanner.record token).2⟩

/-- A pull takes a token from the scanner behind the transcript, and records it. -/
theorem pull_transcriber [Scanner σ] (session : Session (Transcriber σ)) :
    let pulled := Scanner.next session.scanner.inner session.status
    session.pull = (pulled.token, (session.advance pulled).record pulled.token) := by
  simp only [pull, record, advance, Scanner.next, Transcriber.next, List.append_assoc]

/-- A session that writes without a limit, from a listing on, and the same session under one. -/
structure Shadows (start : Listing) (limit : Nat) (free limited : Session (Transcriber σ)) :
    Prop where
  sound : free.scanner.fault = none
  grows : start.Grows free.scanner.listing
  status : free.status = limited.status
  inner : free.scanner.inner = limited.scanner.inner
  listing : limited.scanner.listing = free.scanner.listing.capped limit
  whole : free.scanner.listing.Within limit → limited = free.capped limit
  stopped : ¬free.scanner.listing.Within limit → limited.scanner.fault = some .listingFull

namespace Shadows

variable {start : Listing} {free limited : Session (Transcriber σ)}

/-- A session in which nothing was written yet is shadowed by itself. -/
theorem refl (session : Session (Transcriber σ)) (sound : session.scanner.fault = none)
    (within : session.scanner.listing.Within limit) :
    Shadows session.scanner.listing limit session (session.capped limit) :=
  ⟨sound, .refl _, rfl, rfl, rfl, fun _ => rfl, fun full => absurd within full⟩

theorem amend (shadows : Shadows start limit free limited) (status : Status)
    (entries : List Journal.Entry) :
    Shadows start limit (free.amend status entries) (limited.amend status entries) where
  sound := shadows.sound
  grows := shadows.grows
  status := rfl
  inner := shadows.inner
  listing := shadows.listing
  whole within := by
    rw [shadows.whole within]
    rfl
  stopped := shadows.stopped

theorem advance (shadows : Shadows start limit free limited) (pulled : Pull σ) :
    Shadows start limit (free.advance pulled) (limited.advance pulled) where
  sound := shadows.sound
  grows := shadows.grows
  status := rfl
  inner := rfl
  listing := shadows.listing
  whole within := by
    rw [shadows.whole within]
    rfl
  stopped := shadows.stopped

/-- A token that is recorded without a limit is recorded under it too, cut, or not at all. -/
theorem record (unlimited : start.limit = none) (shadows : Shadows start limit free limited)
    (token : Token) : Shadows start limit (free.record token) (limited.record token) := by
  have unlimited : free.scanner.listing.limit = none := shadows.grows.limit.trans unlimited
  have written : free.scanner.listing.Grows (free.scanner.recorded token).listing :=
    Listing.grows_write unlimited (free.scanner.rowsFor token)
  have recorded : free.record token = ⟨free.scanner.recorded token, free.status, free.journal⟩ := by
    simp only [Session.record, Transcriber.record_unlimited shadows.sound unlimited, List.append_nil]
  have grows := shadows.grows.trans written
  rw [recorded]
  by_cases within : free.scanner.listing.Within limit
  · rw [shadows.whole within]
    have capped := Transcriber.record_capped shadows.sound unlimited within token
    by_cases room : (free.scanner.recorded token).listing.Within limit
    · -- Everything still fits.
      rw [if_pos room] at capped
      have whole : (free.capped limit).record token =
          ⟨(free.scanner.recorded token).capped limit, free.status, free.journal⟩ := by
        simp only [Session.record, Session.capped, capped, List.append_nil]
      rw [whole]
      exact ⟨shadows.sound, grows, rfl, rfl, rfl, fun _ => rfl, fun full => absurd room full⟩
    · -- The rows of this token pass the limit, and the transcript stops.
      rw [if_neg room] at capped
      have cut : ((free.capped limit).record token).scanner =
          { (free.scanner.recorded token).capped limit with fault := some .listingFull } :=
        congrArg Prod.fst capped
      refine ⟨shadows.sound, grows, rfl, ?_, ?_, fun within => absurd within room, fun _ => ?_⟩
      · rw [cut]; rfl
      · rw [cut]; rfl
      · rw [cut]
  · -- The transcript has stopped before, so what is kept is settled.
    have stopped := shadows.stopped within
    have later : ¬(free.scanner.recorded token).listing.Within limit :=
      fun later => within (later.of_grows written)
    have unchanged : limited.record token = limited := by
      simp only [Session.record, Transcriber.record_stopped stopped, List.append_nil]
    rw [unchanged]
    refine ⟨shadows.sound, grows, shadows.status, shadows.inner, ?_, fun room => absurd room later,
      fun _ => stopped⟩
    rw [shadows.listing]
    exact (Listing.capped_of_grows written within).symm

/-- Nothing that is done with a session tells whether there is a limit on its transcript. -/
theorem simulation [Scanner σ] (unlimited : start.limit = none) (limit : Nat) :
    Simulation (@Shadows σ start limit) where
  status shadows := shadows.status
  token shadows := by
    rw [pull_transcriber, pull_transcriber, shadows.inner, shadows.status]
  pull shadows := by
    rw [pull_transcriber, pull_transcriber, shadows.inner, shadows.status]
    exact (shadows.advance _).record unlimited _
  amend status entries shadows := shadows.amend status entries

end Shadows

end Session

end FrontEnd
