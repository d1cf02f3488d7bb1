import FrontEnd.Listing

/-! # Listings under a limit

A listing without a limit only grows, and a limit keeps the first bytes of it. As long as all fits,
a write under the limit succeeds. From the first byte too many on, the kept bytes are settled,
whatever is written later.
-/

namespace FrontEnd.Listing

def capped (limit : Nat) (listing : Listing) : Listing :=
  ⟨cut (some limit) listing.content, some limit⟩

/-- A limit has room for all of a listing. -/
def Within (limit : Nat) (listing : Listing) : Prop :=
  listing.content.size ≤ limit

instance (limit : Nat) (listing : Listing) : Decidable (listing.Within limit) :=
  inferInstanceAs (Decidable (listing.content.size ≤ limit))

/-- A listing with more written into it. -/
structure Grows (earlier later : Listing) : Prop where
  limit : later.limit = earlier.limit
  content : ∃ more, later.content = earlier.content ++ more

variable {limit : Nat} {earlier middle later listing : Listing}

theorem Grows.refl (listing : Listing) : listing.Grows listing :=
  ⟨rfl, .empty, by simp⟩

theorem Grows.trans (first : earlier.Grows middle) (second : middle.Grows later) :
    earlier.Grows later := by
  obtain ⟨more, middle_eq⟩ := first.content
  obtain ⟨still, later_eq⟩ := second.content
  refine ⟨second.limit.trans first.limit, more ++ still, ?_⟩
  rw [later_eq, middle_eq, ByteArray.append_assoc]

theorem grows_write (unlimited : listing.limit = none) (text : String) :
    listing.Grows (listing.write text) :=
  ⟨rfl, text.toUTF8, by simp only [write, unlimited, cut]⟩

theorem write_nothing (unlimited : listing.limit = none) : listing.write "" = listing := by
  obtain ⟨content, limit⟩ := listing
  cases unlimited
  simp [write, cut]

theorem Within.of_grows (grown : earlier.Grows later) (within : later.Within limit) :
    earlier.Within limit := by
  obtain ⟨more, later_eq⟩ := grown.content
  unfold Within at within ⊢
  rw [later_eq, ByteArray.size_append] at within
  omega

theorem capped_empty (limit : Nat) : (empty none).capped limit = empty (some limit) := by
  simp [capped, empty, cut]

/-- Writing under a limit keeps what the limit keeps of writing without one. -/
theorem capped_write (unlimited : listing.limit = none) (limit : Nat) (text : String) :
    (listing.write text).capped limit = (listing.capped limit).write text := by
  simp only [capped, write, unlimited]
  rw [cut_append_cut]
  rfl

/-- What a limit keeps is settled once there is more than it keeps. -/
theorem capped_of_grows (grown : earlier.Grows later) (full : ¬earlier.Within limit) :
    later.capped limit = earlier.capped limit := by
  obtain ⟨more, later_eq⟩ := grown.content
  have room : limit - earlier.content.size = 0 := by unfold Within at full; omega
  simp only [capped, cut, later_eq]
  congr 1
  apply ByteArray.ext
  simp [Array.extract_append, room]

/-- A limit that has room for all of a listing changes nothing but the limit. -/
theorem capped_of_within (within : listing.Within limit) :
    listing.capped limit = { listing with limit := some limit } := by
  unfold Within at within
  simp only [capped, cut]
  congr 1
  apply ByteArray.ext
  simpa using Or.inr within

/-- A text fits under a limit if the limit has room for the listing with the text. -/
theorem fits_capped (unlimited : listing.limit = none) (within : listing.Within limit)
    (text : String) :
    (listing.capped limit).fits text = decide ((listing.write text).Within limit) := by
  rw [capped_of_within within]
  simp [fits, write, unlimited, cut, Within, ByteArray.size_append]

end FrontEnd.Listing
