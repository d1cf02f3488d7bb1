import FrontEnd.Proofs.Compilation.Phases
import FrontEnd.Proofs.Listing.Capped

/-! # Clean cuts

A computation on a workspace is compared with itself under a limit on the listing. It is cut cleanly
if the limit changes nothing as long as all that it writes fits, and otherwise stops it with the
first bytes in the listing. This holds of every write, and of every step that does not touch the
listing. Sequencing keeps it, as long as the files are not touched before a later write.
-/

namespace FrontEnd

variable {ρ α β : Type}

namespace Workspace

def capped (limit : Nat) (workspace : Workspace ρ) : Workspace ρ :=
  { workspace with listing := workspace.listing.capped limit }

theorem capped_start (status : Status) (files : FileTree) (limit : Nat) :
    (start status none files : Workspace ρ).capped limit = start status (some limit) files := by
  simp only [start, capped, Listing.capped_empty]

theorem capped_of_within {workspace : Workspace ρ} {limit : Nat}
    (within : workspace.listing.Within limit) :
    workspace.capped limit =
      { workspace with listing := { workspace.listing with limit := some limit } } := by
  rw [capped, Listing.capped_of_within within]

end Workspace

namespace Run

/-- A result whose workspace is changed. -/
def mapLast (change : Workspace ρ → Workspace ρ) :
    EStateM.Result Failure (Workspace ρ) α → EStateM.Result Failure (Workspace ρ) α
  | .ok value last => .ok value (change last)
  | .error failure last => .error failure (change last)

theorem mapLast_congr {work : Run ρ α} {start : Workspace ρ}
    {change other : Workspace ρ → Workspace ρ}
    (same : change (after work start) = other (after work start)) :
    mapLast change (work start) = mapLast other (work start) := by
  rw [after] at same
  cases ran : work start with
  | ok value last =>
    rw [ran] at same
    exact congrArg (EStateM.Result.ok value) same
  | error failure last =>
    rw [ran] at same
    exact congrArg (EStateM.Result.error failure) same

/-- Where a computation that leaves one workspace behind stops when its listing is full. -/
structure StopsShort (limit : Nat) (start whole stopped : Workspace ρ) : Prop where
  listing : stopped.listing = whole.listing.capped limit
  reports : stopped.reports = whole.reports
  files : stopped.files = start.files

/-- From one start, a limit on the listing leaves a computation alone or stops it cleanly. -/
structure CutsFrom (start : Workspace ρ) (work : Run ρ α) : Prop where
  grows : start.listing.Grows (after work start).listing
  whole (limit : Nat) : (after work start).listing.Within limit →
    work (start.capped limit) = mapLast (Workspace.capped limit) (work start)
  short (limit : Nat) : start.listing.Within limit → ¬(after work start).listing.Within limit →
    ∃ stopped, work (start.capped limit) = .error (.listingNotWritten .listingFull) stopped ∧
      StopsShort limit start (after work start) stopped

/-- A limit on the listing leaves a computation alone or stops it cleanly, wherever it starts. -/
def Cuts (work : Run ρ α) : Prop :=
  ∀ start, start.listing.limit = none → CutsFrom start work

/-- Computations that are cut cleanly can be sequenced, if the first leaves the files alone and
cannot be cut before the second makes its reports. -/
theorem Cuts.bind {work : Run ρ α} {later : α → Run ρ β} (first : Cuts work)
    (files : Keeps Workspace.files work) (second : ∀ value, Cuts (later value))
    (reports : Keeps Workspace.listing work ∨ ∀ value, Keeps Workspace.reports (later value)) :
    Cuts (work >>= later) := by
  intro start unlimited
  obtain ⟨grows, whole, short⟩ := first start unlimited
  have kept := files start
  cases done : work start with
  | error failure last =>
    have same : after (work >>= later) start = after work start := by
      rw [after_of_error done, after_of_error (bind_of_error done)]
    rw [← same] at grows whole short
    constructor
    case grows => exact grows
    case whole =>
      intro limit within
      have ran := whole limit within
      rw [done] at ran
      rw [bind_of_error ran, bind_of_error done]
      rfl
    case short =>
      intro limit within full
      obtain ⟨stopped, ran, stops⟩ := short limit within full
      exact ⟨stopped, bind_of_error ran, stops⟩
  | ok value last =>
    have same : after (work >>= later) start = after (later value) last := by
      rw [after, bind_of_ok done, after]
    rw [after_of_ok done] at grows whole short kept
    have next := second value last (grows.limit.trans unlimited)
    rw [done] at whole
    constructor
    case grows =>
      rw [same]
      exact grows.trans next.grows
    case whole =>
      intro limit within
      rw [same] at within
      have room : last.listing.Within limit := within.of_grows next.grows
      rw [bind_of_ok (whole limit room), bind_of_ok done]
      exact next.whole limit within
    case short =>
      intro limit within full
      rw [same] at full ⊢
      by_cases room : last.listing.Within limit
      · obtain ⟨stopped, ran, stops⟩ := next.short limit room full
        refine ⟨stopped, ?_, stops.listing, stops.reports, stops.files.trans kept⟩
        rw [bind_of_ok (whole limit room)]
        exact ran
      · obtain ⟨stopped, ran, stops⟩ := short limit within room
        -- The second is not reached, so what it would have reported has to be nothing.
        have told : (after (later value) last).reports = last.reports := by
          rcases reports with silent | settled
          · have kept := silent start
            rw [after_of_ok done] at kept
            exact absurd (kept ▸ within) room
          · exact settled value last
        have listing : stopped.listing = (after (later value) last).listing.capped limit := by
          rw [stops.listing]
          exact (Listing.capped_of_grows next.grows room).symm
        exact ⟨stopped, bind_of_error ran, listing, stops.reports.trans told.symm, stops.files⟩

/-! ## Steps that keep the files and the reports -/

/-- A computation that is cut cleanly and leaves the files alone. -/
structure Leading (work : Run ρ α) : Prop where
  cuts : Cuts work
  files : Keeps Workspace.files work

/-- A computation that is cut cleanly and leaves the reports alone. -/
structure Closing (work : Run ρ α) : Prop where
  cuts : Cuts work
  reports : Keeps Workspace.reports work

/-- A computation that is cut cleanly and leaves the files and the reports alone. -/
structure Steady (work : Run ρ α) : Prop extends Leading work, Closing work

section

variable {work : Run ρ α} {later : α → Run ρ β}

theorem Leading.bind (first : Leading work) (second : ∀ value, Closing (later value)) :
    Cuts (work >>= later) :=
  first.cuts.bind first.files (fun value => (second value).cuts)
    (.inr fun value => (second value).reports)

theorem Leading.bind_steady (first : Leading work) (second : ∀ value, Steady (later value)) :
    Leading (work >>= later) :=
  ⟨first.bind fun value => (second value).toClosing,
    first.files.bind fun value => (second value).files⟩

theorem Steady.bind_closing (first : Steady work) (second : ∀ value, Closing (later value)) :
    Closing (work >>= later) :=
  ⟨first.toLeading.bind second, first.reports.bind fun value => (second value).reports⟩

theorem Steady.bind (first : Steady work) (second : ∀ value, Steady (later value)) :
    Steady (work >>= later) :=
  ⟨first.toLeading.bind_steady second, first.reports.bind fun value => (second value).reports⟩

end

/-- A computation that neither reads the listing nor writes into it. -/
def Deaf (work : Run ρ α) : Prop :=
  ∀ workspace listing,
    work { workspace with listing } = mapLast (fun last => { last with listing }) (work workspace)

theorem Deaf.keeps {work : Run ρ α} (deaf : Deaf work) : Keeps Workspace.listing work := by
  intro workspace
  have same : after work { workspace with listing := workspace.listing } = after work workspace := rfl
  rw [← same, after, deaf workspace workspace.listing]
  cases work workspace <;> rfl

theorem Deaf.cuts {work : Run ρ α} (deaf : Deaf work) : Cuts work := by
  intro start unlimited
  have kept := deaf.keeps start
  constructor
  case grows =>
    rw [kept]
    exact .refl start.listing
  case whole =>
    intro limit within
    have ran := deaf start (start.listing.capped limit)
    change work (start.capped limit) = _ at ran
    rw [ran]
    apply mapLast_congr
    rw [Workspace.capped, kept]
  case short =>
    intro limit within full
    rw [kept] at full
    exact absurd within full

theorem Deaf.steady {work : Run ρ α} (deaf : Deaf work) (files : Keeps Workspace.files work)
    (reports : Keeps Workspace.reports work) : Steady work :=
  ⟨⟨deaf.cuts, files⟩, reports⟩

/-- What does not touch the listing can come before anything. -/
theorem Deaf.bind_leading {work : Run ρ α} {later : α → Run ρ β} (deaf : Deaf work)
    (files : Keeps Workspace.files work) (second : ∀ value, Leading (later value)) :
    Leading (work >>= later) :=
  ⟨deaf.cuts.bind files (fun value => (second value).cuts) (.inl deaf.keeps),
    files.bind fun value => (second value).files⟩

theorem Deaf.map {work : Run ρ α} (deaf : Deaf work) (change : α → β) : Deaf (change <$> work) := by
  intro workspace listing
  simp only [Functor.map, EStateM.map, deaf workspace listing]
  cases work workspace <;> rfl

theorem steady_pure (value : α) : Steady (pure value : Run ρ α) :=
  Deaf.steady (fun _ _ => rfl) (fun _ => rfl) fun _ => rfl

theorem steady_throw (failure : Failure) : Steady (throw failure : Run ρ α) :=
  Deaf.steady (fun _ _ => rfl) (fun _ => rfl) fun _ => rfl

theorem steady_note (entry : Journal.Entry) : Steady (note entry : Run ρ Unit) :=
  Deaf.steady (fun _ _ => rfl) (fun _ => rfl) fun _ => rfl

theorem steady_call (stage : StageCall) : Steady (call stage : Run ρ Unit) :=
  Deaf.steady (fun _ _ => rfl) (fun _ => rfl) fun _ => rfl

theorem steady_flag : Steady (flag : Run ρ Unit) :=
  Deaf.steady (fun _ _ => rfl) (fun _ => rfl) fun _ => rfl

/-- What is done may depend on the status. -/
theorem Steady.of_status {work : Status → Run ρ α} (steady : ∀ status, Steady (work status)) :
    Steady (do work (← get).status) where
  cuts start unlimited := by
    obtain ⟨grows, whole, short⟩ := (steady start.status).cuts start unlimited
    exact ⟨grows, whole, short⟩
  files start := (steady start.status).files start
  reports start := (steady start.status).reports start

theorem steady_skips (activity : Journal.Activity) : Steady (skips activity : Run ρ Bool) := by
  unfold skips
  apply @Steady.of_status _ _ fun status => if status.flagged then (do
    note (.skipping activity)
    pure true) else pure false
  intro status
  split
  · exact (steady_note _).bind fun _ => steady_pure true
  · exact steady_pure false

/-- A write goes into the listing whole, or it is where a limit stops the run. -/
theorem cuts_write (text : String) : Cuts (write text : Run ρ Unit) := by
  intro start unlimited
  let last : Workspace ρ := { start with listing := start.listing.write text }
  have done : write text start = .ok () last := write_unlimited unlimited text
  have under {limit : Nat} (within : start.listing.Within limit) :
      write text (start.capped limit) =
        if last.listing.Within limit then .ok () (last.capped limit)
        else .error (.listingNotWritten .listingFull) (last.capped limit) := by
    simp only [write, Workspace.capped, Listing.fits_capped unlimited within,
      Listing.capped_write unlimited, decide_eq_true_eq, last]
  have grows : start.listing.Grows last.listing := Listing.grows_write unlimited text
  constructor
  case grows =>
    rw [after_of_ok done]
    exact grows
  case whole =>
    intro limit within
    rw [after_of_ok done] at within
    rw [under (within.of_grows grows), if_pos within, done]
    rfl
  case short =>
    intro limit within full
    rw [after_of_ok done] at full ⊢
    refine ⟨last.capped limit, ?_, ⟨rfl, rfl, rfl⟩⟩
    rw [under within, if_neg full]

theorem steady_write (text : String) : Steady (write text : Run ρ Unit) := by
  refine ⟨⟨cuts_write text, fun workspace => ?_⟩, fun workspace => ?_⟩
  · rw [after, write]
    cases workspace.listing.fits text <;> rfl
  · rw [after, write]
    cases workspace.listing.fits text <;> rfl

theorem steady_writeWhen (wanted : Bool) (text : String) :
    Steady (writeWhen wanted text : Run ρ Unit) := by
  cases wanted with
  | false => exact steady_pure ()
  | true => exact steady_write text

end Run

end FrontEnd
