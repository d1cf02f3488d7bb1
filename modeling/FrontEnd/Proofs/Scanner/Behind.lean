import FrontEnd.Proofs.Scanner.Limited

/-! # Transcripts behind a header

What a listing starts with has no bearing on what is written behind it, as long as its limit allows
for that. So a session whose transcript goes behind a header hands out the same tokens as without
one, and it writes the same.
-/

namespace FrontEnd

variable {σ : Type} {header : ByteArray} {entries : List Journal.Entry}

namespace Listing

/-- A listing with other bytes before its own, and with room for them. -/
def behind (header : ByteArray) (listing : Listing) : Listing :=
  ⟨header ++ listing.content, listing.limit.map (header.size + ·)⟩

theorem cut_behind (header : ByteArray) (limit : Option Nat) (bytes : ByteArray) :
    cut (limit.map (header.size + ·)) (header ++ bytes) = header ++ cut limit bytes := by
  cases limit with
  | none => rfl
  | some size =>
    apply ByteArray.ext
    have whole : header.data.extract 0 (header.size + size) = header.data := by
      apply Array.extract_eq_self_of_le
      exact Nat.le_add_right _ _
    simp [cut, Array.extract_append, whole]

theorem write_behind (listing : Listing) (text : String) :
    (listing.behind header).write text = (listing.write text).behind header := by
  simp only [write, behind, ByteArray.append_assoc, cut_behind]

theorem fits_behind (listing : Listing) (text : String) :
    (listing.behind header).fits text = listing.fits text := by
  obtain ⟨content, limit⟩ := listing
  cases limit with
  | none => rfl
  | some size => simp [fits, behind, Nat.add_assoc]

end Listing

namespace Transcriber

def behind (header : ByteArray) (transcriber : Transcriber σ) : Transcriber σ :=
  { transcriber with listing := transcriber.listing.behind header }

theorem record_behind (transcriber : Transcriber σ) (token : Token) :
    (transcriber.behind header).record token =
      ((transcriber.record token).1.behind header, (transcriber.record token).2) := by
  cases stopped : transcriber.fault with
  | some fault =>
    have stopped' : (transcriber.behind header).fault = some fault := stopped
    rw [record_stopped stopped, record_stopped stopped']
  | none =>
    have sound : (transcriber.behind header).fault = none := stopped
    have recorded : (transcriber.behind header).recorded token =
        (transcriber.recorded token).behind header := by
      simp only [recorded, behind, ← Listing.write_behind]
      rfl
    have fits : (transcriber.behind header).listing.fits
        ((transcriber.behind header).rowsFor token) =
          transcriber.listing.fits (transcriber.rowsFor token) := Listing.fits_behind _ _
    rw [record_sound stopped, record_sound sound, recorded, fits]
    split <;> rfl

end Transcriber

namespace Session

/-- A session whose listing has other bytes before its own, and whose journal has other entries. -/
def behind (header : ByteArray) (entries : List Journal.Entry) (session : Session (Transcriber σ)) :
    Session (Transcriber σ) :=
  ⟨session.scanner.behind header, session.status, entries ++ session.journal⟩

theorem advance_behind (session : Session (Transcriber σ)) (pulled : Pull σ) :
    (session.behind header entries).advance pulled =
      (session.advance pulled).behind header entries := by
  simp only [advance, behind, Transcriber.behind, List.append_assoc]

theorem record_behind (session : Session (Transcriber σ)) (token : Token) :
    (session.behind header entries).record token =
      (session.record token).behind header entries := by
  simp only [record, behind, Transcriber.record_behind, List.append_assoc]

theorem pull_behind [Scanner σ] (session : Session (Transcriber σ)) :
    (session.behind header entries).pull =
      (session.pull.1, session.pull.2.behind header entries) := by
  rw [pull_transcriber, pull_transcriber, advance_behind, record_behind]
  rfl

/-- A session that is another one with more before its listing and its journal. -/
def IsBehind (header : ByteArray) (entries : List Journal.Entry)
    (left right : Session (Transcriber σ)) : Prop :=
  left = right.behind header entries

/-- Nothing that is done with a session tells what is before its listing and its journal. -/
theorem IsBehind.simulation [Scanner σ] (header : ByteArray) (entries : List Journal.Entry) :
    Simulation (@IsBehind σ header entries) where
  status same := same ▸ rfl
  token same := by rw [same, pull_behind]
  pull same := by rw [same, pull_behind, IsBehind]
  amend status entries same := by
    rw [same, IsBehind]
    simp only [amend, behind, List.append_assoc]

end Session

end FrontEnd
