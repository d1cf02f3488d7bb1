import FrontEnd.Proofs.Scanner.Pulls
import FrontEnd.Proofs.Scanner.Unlisted

/-! # Transcripts are transparent

Whoever takes tokens through a transcript gets those of the scanner behind it, on the same statuses,
whether or not the listing is full. A limit keeps the first bytes of what is written without one.
The write that passes it is the last one: it is reported once, and from then on the transcript only
hands on tokens.
-/

namespace FrontEnd

variable {σ : Type}

/-- A transcriber at its start, with an empty listing. It echoes the lines of a text if there is
one. -/
def Transcriber.opened (inner : σ) (echo : Option String) (writesTokens : Bool)
    (limit : Option Nat) : Transcriber σ :=
  let transcriber := (silent inner (.empty limit)).writingTokens writesTokens
  echo.elim transcriber transcriber.echoing

namespace Session

/-- A session whose transcriber is in front of the scanner of another one. -/
structure Fronts (outer : Session (Transcriber σ)) (inner : Session σ) : Prop where
  scanner : outer.scanner.inner = inner.scanner
  status : outer.status = inner.status

namespace Fronts

variable {outer : Session (Transcriber σ)} {inner : Session σ}

/-- A pull takes the token of the scanner behind the transcript, and may add to what that reports. -/
theorem pull_record [Scanner σ] (fronts : outer.Fronts inner) :
    ∃ advanced : Session (Transcriber σ),
      advanced.scanner = { outer.scanner with inner := inner.pull.2.scanner } ∧
      advanced.status = inner.pull.2.status ∧
      (∃ entries, inner.pull.2.journal = inner.journal ++ entries ∧
        advanced.journal = outer.journal ++ entries) ∧
      outer.pull = (inner.pull.1, advanced.record inner.pull.1) := by
  let pulled := Scanner.next inner.scanner inner.status
  refine ⟨outer.advance pulled, rfl, rfl, ⟨pulled.entries, rfl, rfl⟩, ?_⟩
  rw [pull_transcriber, fronts.scanner, fronts.status]
  rfl

theorem pull [Scanner σ] (fronts : outer.Fronts inner) :
    outer.pull.1 = inner.pull.1 ∧ outer.pull.2.Fronts inner.pull.2 := by
  obtain ⟨advanced, scanner, status, -, pulled⟩ := fronts.pull_record
  rw [pulled]
  refine ⟨rfl, ?_, status⟩
  simp only [record, Transcriber.inner_record, scanner]

/-- No use of a session tells whether it is transcribed. -/
theorem simulation [Scanner σ] : Simulation (@Fronts σ) where
  status fronts := fronts.status
  token fronts := fronts.pull.1
  pull fronts := fronts.pull.2
  amend _ _ fronts := ⟨fronts.scanner, rfl⟩

end Fronts

/-- A session whose transcript nothing can stop, in front of another one with the same journal. -/
structure FrontsFreely (outer : Session (Transcriber σ)) (inner : Session σ) : Prop
    extends Fronts outer inner where
  free : outer.scanner.Free
  journal : outer.journal = inner.journal

theorem FrontsFreely.simulation [Scanner σ] : Simulation (@FrontsFreely σ) where
  status fronts := fronts.status
  token fronts := fronts.pull.1
  pull {outer inner} fronts := by
    obtain ⟨-, -, -, journal, free⟩ := pull_free fronts.free
    refine ⟨fronts.pull.2, free, journal.trans ?_⟩
    rw [fronts.scanner, fronts.status, fronts.journal]
  amend _ entries fronts :=
    ⟨⟨fronts.scanner, rfl⟩, fronts.free, congrArg (· ++ entries) fronts.journal⟩

/-- A session whose transcript was stopped before, in front of another one: since then its listing is
as it was, and both have added the same to their journals. -/
structure FrontsSilently (stopped : Session (Transcriber σ)) (origin : Session σ)
    (outer : Session (Transcriber σ)) (inner : Session σ) : Prop extends Fronts outer inner where
  kept : { outer.scanner with inner := stopped.scanner.inner } = stopped.scanner
  journal : ∃ later, inner.journal = origin.journal ++ later ∧ outer.journal = stopped.journal ++ later

theorem FrontsSilently.simulation [Scanner σ] {stopped : Session (Transcriber σ)} {fault : Fault}
    (broken : stopped.scanner.fault = some fault) (origin : Session σ) :
    Simulation (FrontsSilently stopped origin) where
  status fronts := fronts.status
  token fronts := fronts.pull.1
  pull {outer inner} fronts := by
    obtain ⟨later, direct, transcribed⟩ := fronts.journal
    obtain ⟨advanced, scanner, -, ⟨entries, added, added'⟩, pulled⟩ := fronts.pull_record
    have still : advanced.scanner.fault = some fault := by
      rw [scanner, ← broken, ← fronts.kept]
    have silent : advanced.record inner.pull.1 = advanced := by
      simp only [record, Transcriber.record_stopped still, List.append_nil]
    refine ⟨fronts.pull.2, ?_, later ++ entries, ?_, ?_⟩
    · rw [pulled, silent, scanner]
      exact fronts.kept
    · rw [added, direct, List.append_assoc]
    · rw [pulled, silent, added', transcribed, List.append_assoc]
  amend _ entries fronts := by
    obtain ⟨later, direct, transcribed⟩ := fronts.journal
    refine ⟨⟨fronts.scanner, rfl⟩, fronts.kept, later ++ entries, ?_, ?_⟩
    · rw [amend, direct, List.append_assoc]
    · rw [amend, transcribed, List.append_assoc]

/-- Since a transcript was stopped nothing is written, and the journals grow alike. -/
theorem pulls_stopped [Scanner σ] {stopped : Session (Transcriber σ)} {origin : Session σ}
    {fault : Fault} (broken : stopped.scanner.fault = some fault) (fronts : stopped.Fronts origin)
    (count : Nat) :
    (stopped.pulls count).2.scanner.listing = stopped.scanner.listing ∧
      ∃ later, (origin.pulls count).2.journal = origin.journal ++ later ∧
        (stopped.pulls count).2.journal = stopped.journal ++ later := by
  have start : FrontsSilently stopped origin stopped origin :=
    ⟨fronts, rfl, [], (List.append_nil _).symm, (List.append_nil _).symm⟩
  have later := ((FrontsSilently.simulation broken origin).pulls count start).2
  have kept := congrArg Transcriber.listing later.kept
  exact ⟨kept, later.journal⟩

/-! ## The last write -/

namespace Shadows

variable {start : Listing} {limit : Nat} {free limited : Session (Transcriber σ)}

/-- How a transcript under a limit went: well if the limit has room for all of it. -/
theorem outcome (shadows : Shadows start limit free limited) :
    limited.scanner.outcome =
      if free.scanner.listing.Within limit then .ok () else .error .listingFull := by
  split
  · next within =>
    rw [shadows.whole within]
    simp only [capped, Transcriber.capped, Transcriber.outcome, shadows.sound]
  · next full => simp only [Transcriber.outcome, shadows.stopped full]

variable [Scanner σ] {direct : Session σ}

/-- The pull that passes the limit is reported behind what the scanner itself reports. -/
theorem journal_pull (unlimited : start.limit = none) (shadows : Shadows start limit free limited)
    (fronts : free.FrontsFreely direct) (within : free.scanner.listing.Within limit)
    (full : ¬free.pull.2.scanner.listing.Within limit) :
    limited.pull.2.journal = direct.pull.2.journal ++ [.transcriptStopped .listingFull] := by
  let pulled := Scanner.next direct.scanner direct.status
  let advanced := free.advance pulled
  have sound : advanced.scanner.fault = none := shadows.sound
  have room : advanced.scanner.listing.limit = none := shadows.grows.limit.trans unlimited
  have fits : advanced.scanner.listing.Within limit := within
  have free_pull : free.pull.2 = advanced.record pulled.token := by
    rw [pull_transcriber, fronts.scanner, fronts.status]
  have limited_pull : limited.pull.2 = (advanced.capped limit).record pulled.token := by
    have scanner : (free.capped limit).scanner.inner = direct.scanner := fronts.scanner
    have status : (free.capped limit).status = direct.status := fronts.status
    rw [shadows.whole within, pull_transcriber, scanner, status]
    rfl
  have passed : ¬(advanced.scanner.recorded pulled.token).listing.Within limit := by
    rw [free_pull, Session.record, Transcriber.record_unlimited sound room] at full
    exact full
  have stopped := Transcriber.record_capped sound room fits pulled.token
  rw [if_neg passed] at stopped
  have reported : (advanced.capped limit).journal = direct.pull.2.journal :=
    congrArg (· ++ pulled.entries) fronts.journal
  rw [limited_pull, Session.record]
  change _ ++ ((advanced.scanner.capped limit).record pulled.token).2 = _
  rw [stopped, reported]

end Shadows

/-- If a limit has room for a transcript at first and not in the end, one pull has passed it. -/
theorem exists_passing [Scanner σ] {session : Session (Transcriber σ)} {limit count : Nat}
    (within : session.scanner.listing.Within limit)
    (full : ¬(session.pulls count).2.scanner.listing.Within limit) :
    ∃ stop < count, (session.pulls stop).2.scanner.listing.Within limit ∧
      ¬(session.pulls (stop + 1)).2.scanner.listing.Within limit := by
  induction count with
  | zero => exact absurd within full
  | succ count ih =>
    by_cases earlier : (session.pulls count).2.scanner.listing.Within limit
    · exact ⟨count, Nat.lt_succ_self count, earlier, full⟩
    · obtain ⟨stop, before, stops⟩ := ih earlier
      exact ⟨stop, Nat.lt_succ_of_lt before, stops⟩

/-- A transcript that a limit has no room for in the end is stopped by one pull. It went well up to
there, and since then nothing was written. The stop is reported behind what the scanner itself has
reported, and nothing else is. -/
theorem pulls_full [Scanner σ] {start : Listing} {free limited : Session (Transcriber σ)}
    {direct : Session σ} {limit count : Nat} (unlimited : start.limit = none)
    (shadows : Shadows start limit free limited) (freely : free.FrontsFreely direct)
    (room : free.scanner.listing.Within limit)
    (full : ¬(free.pulls count).2.scanner.listing.Within limit) :
    ∃ stop < count,
      (limited.pulls stop).2.scanner.outcome = .ok () ∧
      (limited.pulls (stop + 1)).2.scanner.outcome = .error .listingFull ∧
      (limited.pulls count).2.scanner.listing = (limited.pulls (stop + 1)).2.scanner.listing ∧
      ∃ later,
        (direct.pulls count).2.journal = (direct.pulls (stop + 1)).2.journal ++ later ∧
        (limited.pulls count).2.journal =
          (direct.pulls (stop + 1)).2.journal ++ .transcriptStopped .listingFull :: later := by
  have shadowed (count : Nat) : Shadows start limit (free.pulls count).2 (limited.pulls count).2 :=
    ((Shadows.simulation unlimited limit).pulls count shadows).2
  have fronted (count : Nat) : FrontsFreely (free.pulls count).2 (direct.pulls count).2 :=
    (FrontsFreely.simulation.pulls count freely).2
  obtain ⟨stop, before, within, passed⟩ := exists_passing room full
  have well := (shadowed stop).outcome
  have failed := (shadowed (stop + 1)).outcome
  rw [if_pos within] at well
  rw [if_neg passed] at failed
  have broken := (shadowed (stop + 1)).stopped passed
  have reported : (limited.pulls (stop + 1)).2.journal =
      (direct.pulls (stop + 1)).2.journal ++ [.transcriptStopped .listingFull] := by
    simp only [pulls_succ] at passed ⊢
    exact (shadowed stop).journal_pull unlimited (fronted stop) within passed
  have outer : (limited.pulls (stop + 1)).2.Fronts (direct.pulls (stop + 1)).2 := by
    have inner := (shadowed (stop + 1)).inner.symm.trans (fronted (stop + 1)).scanner
    exact ⟨inner, (shadowed (stop + 1)).status.symm.trans (fronted (stop + 1)).status⟩
  -- What follows the stop is pulled from there on.
  obtain ⟨rest, rfl⟩ := Nat.exists_eq_add_of_le (Nat.succ_le_of_lt before)
  rw [pulls_add, pulls_add _ _ direct]
  obtain ⟨listing, later, direct_eq, transcribed_eq⟩ := pulls_stopped broken outer rest
  refine ⟨stop, before, well, failed, listing, later, direct_eq, ?_⟩
  rw [transcribed_eq, reported, List.append_assoc]
  rfl

/-! ## Transcripts from the start -/

theorem fronts_opened (inner : σ) (status : Status) (journal : List Journal.Entry)
    (echo : Option String) (writesTokens : Bool) (limit : Option Nat) :
    Fronts ⟨Transcriber.opened inner echo writesTokens limit, status, journal⟩
      ⟨inner, status, journal⟩ := by
  cases echo <;> exact ⟨rfl, rfl⟩

theorem shadows_opened (inner : σ) (status : Status) (journal : List Journal.Entry)
    (echo : Option String) (writesTokens : Bool) (limit : Nat) :
    Shadows (.empty none) limit
      ⟨Transcriber.opened inner echo writesTokens none, status, journal⟩
      ⟨Transcriber.opened inner echo writesTokens (some limit), status, journal⟩ := by
  let session : Session (Transcriber σ) :=
    ⟨Transcriber.opened inner echo writesTokens none, status, journal⟩
  have sound : session.scanner.fault = none := by cases echo <;> rfl
  have empty : session.scanner.listing = .empty none := by cases echo <;> rfl
  have capped : session.capped limit =
      ⟨Transcriber.opened inner echo writesTokens (some limit), status, journal⟩ := by
    cases echo <;> simp only [session, Session.capped, Transcriber.capped, Transcriber.opened,
      Transcriber.silent, Transcriber.writingTokens, Transcriber.echoing, Option.elim,
      Listing.capped_empty]
  have within : session.scanner.listing.Within limit := by
    rw [empty]
    exact Nat.zero_le limit
  have shadows := Shadows.refl session sound within
  rw [empty, capped] at shadows
  exact shadows

/-- Tokens that are pulled through a transcript are those of the scanner behind it, each with the same
status after it, whatever the limit of the listing is. The listing holds the first bytes of the one
without a limit, and the transcript went well if these are all. If so, the journal is that of the
scanner. If not, one pull has stopped the transcript: since then nothing was written, and the journal
has one entry more than that of the scanner, where the transcript stopped. -/
theorem pulls_opened [Scanner σ] (inner : σ) (status : Status) (journal : List Journal.Entry)
    (echo : Option String) (writesTokens : Bool) (limit count : Nat) :
    let direct (count : Nat) := pulls count ⟨inner, status, journal⟩
    let transcribed (limit : Option Nat) (count : Nat) :=
      pulls count ⟨Transcriber.opened inner echo writesTokens limit, status, journal⟩
    let whole := (transcribed none count).2.scanner.listing.content
    let last := (transcribed (some limit) count).2
    (∀ limit, (transcribed limit count).1 = (direct count).1) ∧
    last.scanner.listing.content = whole.extract 0 limit ∧
    last.scanner.outcome = (if whole.size ≤ limit then .ok () else .error .listingFull) ∧
    if whole.size ≤ limit then last.journal = (direct count).2.journal
    else ∃ stop < count,
      let stopped := (transcribed (some limit) (stop + 1)).2
      (transcribed (some limit) stop).2.scanner.outcome = .ok () ∧
      stopped.scanner.outcome = .error .listingFull ∧
      last.scanner.listing = stopped.scanner.listing ∧
      ∃ later, (direct count).2.journal = (direct (stop + 1)).2.journal ++ later ∧
        last.journal =
          (direct (stop + 1)).2.journal ++ .transcriptStopped .listingFull :: later := by
  intro direct transcribed whole last
  have opened := shadows_opened inner status journal echo writesTokens limit
  have freely : FrontsFreely ⟨Transcriber.opened inner echo writesTokens none, status, journal⟩
      ⟨inner, status, journal⟩ := by
    refine ⟨fronts_opened inner status journal echo writesTokens none, ?_, rfl⟩
    cases echo <;> exact ⟨rfl, rfl⟩
  have shadows : Shadows (.empty none) limit (transcribed none count).2 last :=
    ((Shadows.simulation rfl limit).pulls count opened).2
  refine ⟨fun limit => ?_, congrArg Listing.content shadows.listing, shadows.outcome, ?_⟩
  · have fronts := fronts_opened inner status journal echo writesTokens limit
    exact (Fronts.simulation.pulls count fronts).1
  split
  · next within =>
    have same : last = (transcribed none count).2.capped limit := shadows.whole within
    rw [same]
    exact (FrontsFreely.simulation.pulls count freely).2.journal
  · next full =>
    have room : (transcribed none 0).2.scanner.listing.Within limit := by
      cases echo <;> exact Nat.zero_le limit
    exact pulls_full rfl opened freely room full

end Session

end FrontEnd
