/-! # Listings

A listing takes text as bytes. One with a limit keeps the bytes that fit and fails as soon as
there are more, so after a failure it holds a cut of all that was written. Writing nothing never
fails.
-/

namespace FrontEnd

/-- The bytes of a listing and how many it can hold. -/
structure Listing where
  content : ByteArray
  limit : Option Nat

namespace Listing

def empty (limit : Option Nat) : Listing :=
  ⟨.empty, limit⟩

/-- Bytes cut to a limit. -/
def cut (limit : Option Nat) (bytes : ByteArray) : ByteArray :=
  match limit with
  | none => bytes
  | some size => bytes.extract 0 size

/-- Whether all of a text can be added. -/
def fits (listing : Listing) (text : String) : Bool :=
  match listing.limit with
  | none => true
  | some size => listing.content.size + text.utf8ByteSize ≤ size

/-- Add a text, as far as it fits. -/
def write (listing : Listing) (text : String) : Listing :=
  { listing with content := cut listing.limit (listing.content ++ text.toUTF8) }

@[simp] theorem limit_write (listing : Listing) (text : String) :
    (listing.write text).limit = listing.limit := rfl

/-- Cutting what was kept so far and then more is cutting all of it at once. -/
theorem cut_append_cut (limit : Option Nat) (bytes more : ByteArray) :
    cut limit (cut limit bytes ++ more) = cut limit (bytes ++ more) := by
  cases limit with
  | none => rfl
  | some size =>
    apply ByteArray.ext
    have room : size - min size bytes.size = size - bytes.size := by omega
    simp [cut, Array.extract_append, room]

/-- Two texts in a row are written as one. -/
theorem write_write (listing : Listing) (first second : String) :
    (listing.write first).write second = listing.write (first ++ second) := by
  simp [write, cut_append_cut, ByteArray.append_assoc]

end FrontEnd.Listing
