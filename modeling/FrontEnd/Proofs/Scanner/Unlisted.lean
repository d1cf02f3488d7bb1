import FrontEnd.Proofs.Scanner.Limited

/-! # Transcripts into an unlimited listing

A transcript that nothing can stop is a bystander: whatever it writes, the session hands out the
tokens of the scanner behind it and keeps the same status and journal. So two sessions over one
scanner cannot be told apart by what their transcripts write.
-/

namespace FrontEnd

variable {σ : Type}

/-- A transcriber that no write has stopped or can stop. -/
structure Transcriber.Free (transcriber : Transcriber σ) : Prop where
  sound : transcriber.fault = none
  unlimited : transcriber.listing.limit = none

theorem Transcriber.Free.record {transcriber : Transcriber σ} (free : transcriber.Free)
    (token : Token) : transcriber.record token = (transcriber.recorded token, []) :=
  record_unlimited free.sound free.unlimited token

theorem Transcriber.Free.recorded {transcriber : Transcriber σ} (free : transcriber.Free)
    (token : Token) : (transcriber.recorded token).Free :=
  ⟨free.sound, free.unlimited⟩

namespace Session

/-- A pull through a free transcript is a pull on the scanner behind it. -/
theorem pull_free [Scanner σ] {session : Session (Transcriber σ)} (free : session.scanner.Free) :
    let pulled := pull ⟨session.scanner.inner, session.status, session.journal⟩
    session.pull.1 = pulled.1 ∧ session.pull.2.scanner.inner = pulled.2.scanner ∧
      session.pull.2.status = pulled.2.status ∧ session.pull.2.journal = pulled.2.journal ∧
      session.pull.2.scanner.Free := by
  intro pulled
  rw [pull_transcriber]
  have advanced : (session.advance (Scanner.next session.scanner.inner session.status)).scanner.Free :=
    ⟨free.sound, free.unlimited⟩
  simp only [record, advanced.record, List.append_nil]
  exact ⟨rfl, rfl, rfl, rfl, advanced.recorded _⟩

/-- Sessions over one scanner that differ in what their transcripts write. -/
structure Unlisted (left right : Session (Transcriber σ)) : Prop where
  status : left.status = right.status
  journal : left.journal = right.journal
  inner : left.scanner.inner = right.scanner.inner
  free : left.scanner.Free
  otherFree : right.scanner.Free

theorem Unlisted.simulation [Scanner σ] : Simulation (@Unlisted σ) where
  status unlisted := unlisted.status
  token {left right} unlisted := by
    rw [(pull_free unlisted.free).1, (pull_free unlisted.otherFree).1, unlisted.inner,
      unlisted.status, unlisted.journal]
  pull {left right} unlisted := by
    obtain ⟨-, inner, status, journal, free⟩ := pull_free unlisted.free
    obtain ⟨-, inner', status', journal', free'⟩ := pull_free unlisted.otherFree
    rw [unlisted.inner, unlisted.status, unlisted.journal] at inner status journal
    exact ⟨status.trans status'.symm, journal.trans journal'.symm, inner.trans inner'.symm, free,
      free'⟩
  amend status entries unlisted :=
    ⟨rfl, congrArg (· ++ entries) unlisted.journal, unlisted.inner, unlisted.free,
      unlisted.otherFree⟩

end Session

end FrontEnd
