import FrontEnd.Lexer.Cursor
import Mathlib.Data.List.Basic

/-! # Texts as bytes

A source is the bytes of its characters. So where its characters are split, its bytes are split as
well: a position that has whole characters before it is a boundary, the byte there is the first one
of a character, and what is cut out between two such positions is the text between them. A character
of ASCII is one byte, its code; every byte of another character is beyond ASCII, and the first of
them tells how many there are.
-/

namespace FrontEnd

namespace Text

def encode (text : List Char) : List UInt8 :=
  text.flatMap String.utf8EncodeChar

@[simp] theorem encode_nil : encode [] = [] := rfl

@[simp] theorem encode_cons (char : Char) (text : List Char) :
    encode (char :: text) = String.utf8EncodeChar char ++ encode text := rfl

@[simp] theorem encode_append (first second : List Char) :
    encode (first ++ second) = encode first ++ encode second :=
  List.flatMap_append

def width (text : List Char) : Nat :=
  (encode text).length

@[simp] theorem width_nil : width [] = 0 := rfl

@[simp] theorem width_cons (char : Char) (text : List Char) :
    width (char :: text) = char.utf8Size + width text := by
  rw [width, encode_cons, List.length_append, String.length_utf8EncodeChar, width]

@[simp] theorem width_append (first second : List Char) :
    width (first ++ second) = width first + width second := by
  rw [width, encode_append, List.length_append, width, width]

theorem bytes_eq_encode (source : String) :
    source.toByteArray.data.toList = encode source.toList := by
  rw [← String.utf8Encode_toList]
  exact List.toList_data_toByteArray

theorem utf8ByteSize_eq_width (source : String) : source.utf8ByteSize = width source.toList := by
  rw [width, ← bytes_eq_encode]
  rfl

theorem utf8ByteSize_ofList (text : List Char) : (String.ofList text).utf8ByteSize = width text := by
  rw [utf8ByteSize_eq_width, String.toList_ofList]

/-! ### The bytes of a character -/

def lead (char : Char) : UInt8 :=
  (String.utf8EncodeChar char).head String.utf8EncodeChar_ne_nil

/-- The first byte of a character is the code of a character of ASCII, or it tells by its size how
many bytes there are. -/
theorem lead_cases (char : Char) :
    (char.utf8Size = 1 ∧ (lead char).toNat = char.toNat ∧ char.toNat < 128) ∨
      (char.utf8Size = 2 ∧ 192 ≤ (lead char).toNat ∧ (lead char).toNat < 224) ∨
      (char.utf8Size = 3 ∧ 224 ≤ (lead char).toNat ∧ (lead char).toNat < 240) ∨
      (char.utf8Size = 4 ∧ 240 ≤ (lead char).toNat) := by
  rw [← String.length_utf8EncodeChar, lead]
  have code : char.val.toNat = char.toNat := rfl
  unfold String.utf8EncodeChar
  dsimp only
  split_ifs <;>
  · simp
    omega

/-- Every byte of a character beyond ASCII is beyond ASCII. -/
theorem beyond_of_mem_encode {char : Char} (beyond : 128 ≤ char.toNat) :
    ∀ byte ∈ String.utf8EncodeChar char, 128 ≤ byte.toNat := by
  intro byte member
  unfold String.utf8EncodeChar at member
  unfold Char.toNat at beyond
  dsimp only at member
  split_ifs at member
  · omega
  all_goals
    simp only [List.mem_cons, List.not_mem_nil, or_false] at member
    rcases member with rfl | rfl | rfl | rfl <;> simp <;> omega

theorem toNat_ofUInt8 (byte : UInt8) : (Char.ofUInt8 byte).toNat = byte.toNat :=
  UInt8.toNat_toUInt32 byte

/-- The first byte of a character beyond ASCII stands for another character beyond ASCII. -/
theorem beyond_lead {char : Char} (beyond : 128 ≤ char.toNat) :
    128 ≤ (Char.ofUInt8 (lead char)).toNat := by
  rw [toNat_ofUInt8]
  exact beyond_of_mem_encode beyond _ (List.head_mem _)

theorem utf8Size_of_ascii {char : Char} (ascii : char.toNat < 128) : char.utf8Size = 1 :=
  Char.utf8Size_eq_one_iff.mpr (UInt32.le_iff_toNat_le.mpr (Nat.le_of_lt_succ ascii))

/-- A character of ASCII is told by its first byte. -/
theorem ofUInt8_lead {char : Char} (ascii : char.toNat < 128) : Char.ofUInt8 (lead char) = char := by
  have single := utf8Size_of_ascii ascii
  obtain ⟨-, code, -⟩ | ⟨size, -⟩ | ⟨size, -⟩ | ⟨size, -⟩ := lead_cases char
  · exact Char.toNat_inj.mp ((toNat_ofUInt8 _).trans code)
  all_goals omega

theorem ofUInt8_lead_eq_iff {char other : Char} (ascii : other.toNat < 128) :
    Char.ofUInt8 (lead char) = other ↔ char = other := by
  by_cases beyond : 128 ≤ char.toNat
  · have further := beyond_lead beyond
    constructor <;> rintro rfl <;> omega
  · rw [ofUInt8_lead (Nat.not_le.mp beyond)]

theorem encode_of_ascii {char : Char} (ascii : char.toNat < 128) :
    String.utf8EncodeChar char = [lead char] := by
  have size := String.length_utf8EncodeChar char
  rw [utf8Size_of_ascii ascii] at size
  obtain ⟨byte, single⟩ := List.length_eq_one_iff.mp size
  simp [lead, single]

/-- Bytes are taken as long as the characters of ASCII that they stand for are. -/
theorem takeWhile_encode {test : Char → Bool} (ascii : ∀ char, test char → char.toNat < 128)
    (text : List Char) :
    ((encode text).takeWhile fun byte => test (Char.ofUInt8 byte)) = encode (text.takeWhile test) := by
  induction text with
  | nil => rfl
  | cons char text ih =>
    by_cases beyond : 128 ≤ char.toNat
    · have fails : ¬ test char := fun passes => absurd (ascii char passes) (Nat.not_lt.mpr beyond)
      have stops : ¬ test (Char.ofUInt8 (lead char)) := fun passes =>
        absurd (ascii _ passes) (Nat.not_lt.mpr (beyond_lead beyond))
      have opens : String.utf8EncodeChar char = lead char :: (String.utf8EncodeChar char).tail :=
        (List.cons_head_tail String.utf8EncodeChar_ne_nil).symm
      rw [List.takeWhile_cons_of_neg fails, encode_cons, opens, List.cons_append]
      exact List.takeWhile_cons_of_neg stops
    · have single := Nat.not_le.mp beyond
      rw [encode_cons, encode_of_ascii single, List.singleton_append, List.takeWhile_cons,
        List.takeWhile_cons, ofUInt8_lead single, ih]
      split
      · rw [encode_cons, encode_of_ascii single, List.singleton_append]
      · rfl

end Text

namespace Cursor

open Text

/-- The masks tell the size of a byte. -/
theorem strayLength_eq (lead : UInt8) :
    strayLength lead =
      if 240 ≤ lead.toNat then 4 else if 224 ≤ lead.toNat then 3
      else if 192 ≤ lead.toNat then 2 else 1 := by
  have all : ∀ code : Fin 256, strayLength (UInt8.ofNat code) =
      if 240 ≤ code.val then 4 else if 224 ≤ code.val then 3
      else if 192 ≤ code.val then 2 else 1 := by
    decide +kernel
  simpa using all lead.toFin

/-- The first byte of a character tells its length. -/
theorem strayLength_lead (char : Char) : strayLength (lead char) = char.utf8Size := by
  rw [strayLength_eq]
  obtain ⟨size, code, ascii⟩ | ⟨size, above, below⟩ | ⟨size, above, below⟩ | ⟨size, above⟩ :=
    lead_cases char <;>
  · rw [size]
    split_ifs <;> omega

example : ['$', 'é', '→', '🤗'].map (fun char => strayLength (lead char)) = [1, 2, 3, 4] := by decide

variable {source : String} {read text rest : List Char}

/-! ### Where the characters of a source are split -/

theorem byte?_eq (split : source.toList = read ++ rest) (ahead : Nat) :
    byte? source (width read + ahead) = (encode rest)[ahead]? := by
  have bytes : encode source.toList = encode read ++ encode rest := by rw [split, encode_append]
  have listed (position : Nat) : byte? source position = (encode source.toList)[position]? := by
    rw [← bytes_eq_encode]
    simp [byte?, getElem?_def, ByteArray.getElem_eq_getElem_data]
  rw [listed, bytes, width, List.getElem?_append_right (Nat.le_add_right ..), Nat.add_sub_cancel_left]

/-- A position with whole characters before it is a boundary. -/
theorem isValid_width (split : source.toList = read ++ rest) :
    String.Pos.Raw.IsValid source ⟨width read⟩ := by
  refine String.Pos.Raw.isValid_iff_exists_append.mpr ⟨String.ofList read, String.ofList rest, ?_, ?_⟩
  · rw [← String.ofList_append, ← split, String.ofList_toList]
  · rw [← utf8ByteSize_ofList]
    rfl

/-- Between two positions with whole characters before them is the text between these. -/
theorem slice?_eq (split : source.toList = read ++ (text ++ rest)) :
    slice? source (width read) (width read + width text) = some (String.ofList text) := by
  have opens := isValid_width split
  have closes : String.Pos.Raw.IsValid source ⟨width read + width text⟩ := by
    have further : source.toList = (read ++ text) ++ rest := by rw [split, List.append_assoc]
    rw [← width_append]
    exact isValid_width further
  rw [slice?, dif_pos ⟨opens, closes, Nat.le_add_right ..⟩, Option.some.injEq, ← String.toByteArray_inj,
    String.toByteArray_extract, String.toByteArray_ofList]
  have whole : source.toByteArray =
      (read.utf8Encode ++ text.utf8Encode) ++ rest.utf8Encode := by
    rw [← String.utf8Encode_toList, split, List.utf8Encode_append, List.utf8Encode_append,
      ByteArray.append_assoc]
  have sizes : read.utf8Encode.size = width read ∧ text.utf8Encode.size = width text :=
    ⟨List.size_toByteArray, List.size_toByteArray⟩
  rw [whole, ByteArray.extract_append, ByteArray.size_append, sizes.1, sizes.2, Nat.sub_self,
    ByteArray.extract_append_eq_right sizes.1.symm (by rw [sizes.1, sizes.2])]
  simp

end Cursor

end FrontEnd
