import FrontEnd.Proofs.Lexer.Longest
import FrontEnd.Proofs.Lexer.Skip
import FrontEnd.Proofs.Text.Encoding

/-! # Scanning by position

Scanning by position does what scanning a text does. Behind whole characters, a cursor sees the first
byte of the text ahead; that byte stands for the first character if this is one of ASCII, and for none
of ASCII otherwise. So gaps end where those of the text end, though the characters of a comment are
skipped byte by byte, and the lexeme behind a gap is the longest one of the text, as long as its bytes.
-/

namespace FrontEnd

namespace Cursor

open Lexer Text

variable {source : String} {read rest : List Char}

/-! ### Cursors behind a text -/

/-- The cursor behind a text that has been read. -/
def behind (read : List Char) (line : Nat) : Cursor :=
  ⟨width read, line⟩

theorem advance_behind (read text : List Char) (line : Nat) :
    (behind read line).advance (width text) = behind (read ++ text) line := by
  rw [advance, behind, behind, width_append]

theorem advance_one {char : Char} (ascii : char.toNat < 128) (read : List Char) (line : Nat) :
    (behind read line).advance 1 = behind (read ++ [char]) line := by
  rw [← advance_behind, width_cons, utf8Size_of_ascii ascii, width_nil]

theorem advance_pair {first second : Char} (ascii : first.toNat < 128) (alike : second.toNat < 128)
    (read : List Char) (line : Nat) :
    (behind read line).advance 2 = behind ((read ++ [first]) ++ [second]) line := by
  rw [← advance_one alike, ← advance_one ascii]
  rfl

theorem split_cons {char : Char} (split : source.toList = read ++ char :: rest) :
    source.toList = (read ++ [char]) ++ rest := by
  rw [split, List.append_assoc, List.singleton_append]

/-- Of a split source, a cursor behind the first part sees the bytes of the second. -/
theorem look_behind (split : source.toList = read ++ rest) (line ahead : Nat) :
    look source (behind read line) ahead = (encode rest)[ahead]?.map Char.ofUInt8 := by
  rw [look, behind, byte?_eq split]

theorem look_first (split : source.toList = read ++ rest) (line : Nat) :
    look source (behind read line) 0 = rest.head?.map fun char => Char.ofUInt8 (lead char) := by
  rw [look_behind split, ← List.head?_eq_getElem?]
  cases rest with
  | nil => rfl
  | cons char rest =>
    rw [encode_cons, List.head?_append_of_ne_nil _ String.utf8EncodeChar_ne_nil,
      List.head?_eq_some_head String.utf8EncodeChar_ne_nil]
    rfl

/-- Over a character of ASCII, a cursor sees the one behind it. -/
theorem look_second {char : Char} (ascii : char.toNat < 128)
    (split : source.toList = read ++ char :: rest) (line : Nat) :
    look source (behind read line) 1 = rest.head?.map fun char => Char.ofUInt8 (lead char) := by
  rw [← look_first (split_cons split) line, ← advance_one ascii]
  rfl

theorem look_ascii {char : Char} (ascii : char.toNat < 128)
    (split : source.toList = read ++ char :: rest) (line : Nat) :
    look source (behind read line) 0 = some char := by
  rw [look_first split, List.head?_cons, Option.map_some, ofUInt8_lead ascii]

/-- A character of ASCII is seen only where it is. -/
theorem head?_eq_of_look {char : Char} (ascii : char.toNat < 128)
    (split : source.toList = read ++ rest) {line : Nat}
    (seen : look source (behind read line) 0 = some char) : rest.head? = some char := by
  rw [look_first split] at seen
  obtain ⟨first, begins, alike⟩ := Option.map_eq_some_iff.mp seen
  rw [begins, (ofUInt8_lead_eq_iff ascii).mp alike]

theorem look_second_eq_some_iff {first char : Char} (ascii : first.toNat < 128)
    (alike : char.toNat < 128) (split : source.toList = read ++ first :: rest) (line : Nat) :
    look source (behind read line) 1 = some char ↔ rest.head? = some char := by
  rw [look_second ascii split]
  simp [ofUInt8_lead_eq_iff alike]

theorem atEnd_behind (split : source.toList = read ++ rest) (line : Nat) :
    (behind read line).atEnd source = rest.isEmpty := by
  rw [atEnd, utf8ByteSize_eq_width, split, width_append, behind, Bool.eq_iff_iff]
  cases rest with
  | nil => simp
  | cons char rest =>
    have := char.utf8Size_pos
    simp
    omega

theorem newline_behind (split : source.toList = read ++ '\n' :: rest) (line : Nat) :
    (behind read line).newline source = behind (read ++ ['\n']) (lineAfterNewline rest line) := by
  have ascii : '\n'.toNat < 128 := by decide
  rw [newline, advance_one ascii, atEnd_behind (split_cons split), lineAfterNewline]
  split_ifs <;> rfl

/-! ### Gaps -/

theorem run_of_step {skip later : Skip} (stepped : skip.step source = .inl later) :
    skip.run source = later.run source := by
  rw [Skip.run]
  split
  · next other same => cases stepped.symm.trans same; rfl
  · next other same => cases stepped.symm.trans same

theorem run_of_stop {skip : Skip} {stop : Stop} (stepped : skip.step source = .inr stop) :
    skip.run source = stop := by
  rw [Skip.run]
  split
  · next other same => cases stepped.symm.trans same
  · next other same => cases stepped.symm.trans same; rfl

/-- Where no gap begins, skipping has come to an end. -/
theorem step_gapless (split : source.toList = read ++ rest) (gapless : Gapless rest) (line : Nat) :
    (Skip.gap (behind read line)).step source = .inr (.reached (behind read line)) := by
  have begins {char : Char} (ascii : char.toNat < 128)
      (seen : look source (behind read line) 0 = some char) : rest.head? = some char :=
    head?_eq_of_look ascii split seen
  rw [Skip.step]
  split
  case h_1 seen | h_2 seen | h_3 seen | h_4 seen =>
    exact absurd (by decide) (gapless.not_blank _ (begins (by decide) seen))
  case h_5 seen =>
    obtain ⟨later, rfl⟩ := List.head?_eq_some_iff.mp (begins (by decide) seen)
    refine if_neg fun further => gapless.not_comment ?_
    obtain ⟨inner, rfl⟩ := List.head?_eq_some_iff.mp
      ((look_second_eq_some_iff (by decide) (by decide) split line).mp further)
    exact ⟨inner, rfl⟩
  case h_6 => rfl

theorem step_newline (split : source.toList = read ++ '\n' :: rest) (line : Nat) :
    (Skip.gap (behind read line)).step source =
      .inl (.gap (behind (read ++ ['\n']) (lineAfterNewline rest line))) := by
  rw [Skip.step, look_ascii (by decide) split, newline_behind split]
  rfl

theorem step_open (split : source.toList = read ++ '/' :: '*' :: rest) (line : Nat) :
    (Skip.gap (behind read line)).step source =
      .inl (.comment (width read) (behind ((read ++ ['/']) ++ ['*']) line)) := by
  have second := (look_second_eq_some_iff (by decide) (by decide) split line).mpr rfl
  have behindPair : (behind read line).advance 2 = behind ((read ++ ['/']) ++ ['*']) line :=
    advance_pair (by decide) (by decide) read line
  rw [Skip.step, look_ascii (by decide) split]
  simp only [second, behindPair, ↓reduceIte]
  rfl

theorem step_close (split : source.toList = read ++ '*' :: '/' :: rest) (start line : Nat) :
    (Skip.comment start (behind read line)).step source =
      .inl (.gap (behind ((read ++ ['*']) ++ ['/']) line)) := by
  have second := (look_second_eq_some_iff (by decide) (by decide) split line).mpr rfl
  have behindPair : (behind read line).advance 2 = behind ((read ++ ['*']) ++ ['/']) line :=
    advance_pair (by decide) (by decide) read line
  rw [Skip.step, look_ascii (by decide) split]
  simp only [second, behindPair, ↓reduceIte]

theorem step_comment_newline (split : source.toList = read ++ '\n' :: rest) (start line : Nat) :
    (Skip.comment start (behind read line)).step source =
      .inl (.comment start (behind (read ++ ['\n']) (lineAfterNewline rest line))) := by
  rw [Skip.step, look_ascii (by decide) split, newline_behind split]
  rfl

theorem step_comment_end (split : source.toList = read) (start line : Nat) :
    (Skip.comment start (behind read line)).step source = .inr (.unclosed start (behind read line)) := by
  rw [Skip.step, look_first (split.trans (List.append_nil _).symm)]
  rfl

/-- A byte in a comment that neither ends it nor ends a line is skipped. -/
theorem step_comment {cursor : Cursor} {char : Char} (seen : look source cursor 0 = some char)
    (goesOn : char = '*' → look source cursor 1 ≠ some '/') (within : char ≠ '\n') (start : Nat) :
    (Skip.comment start cursor).step source = .inl (.comment start (cursor.advance 1)) := by
  rw [Skip.step, seen]
  split
  · next none => cases none
  · next star => rw [if_neg (goesOn (Option.some.inj star))]
  · next newline => exact absurd (Option.some.inj newline) within
  · rfl

/-- In a comment, bytes beyond ASCII are skipped one by one. -/
theorem run_bytes {bytes : List UInt8} (beyond : ∀ byte ∈ bytes, 128 ≤ byte.toNat) {cursor : Cursor}
    (seen : ∀ ahead < bytes.length, look source cursor ahead = bytes[ahead]?.map Char.ofUInt8)
    (start : Nat) :
    (Skip.comment start cursor).run source =
      (Skip.comment start (cursor.advance bytes.length)).run source := by
  induction bytes generalizing cursor with
  | nil => rfl
  | cons byte bytes ih =>
    obtain ⟨large, later⟩ := List.forall_mem_cons.mp beyond
    have apart {char : Char} (ascii : char.toNat < 128) : Char.ofUInt8 byte ≠ char := by
      rintro rfl
      rw [toNat_ofUInt8] at ascii
      omega
    have here : look source cursor 0 = some (Char.ofUInt8 byte) := seen 0 (Nat.succ_pos _)
    have stepped := step_comment here (fun star => absurd star (apart (by decide))) (apart (by decide)) start
    have further : ∀ ahead < bytes.length,
        look source (cursor.advance 1) ahead = bytes[ahead]?.map Char.ofUInt8 := by
      intro ahead within
      have there := seen (ahead + 1) (Nat.succ_lt_succ within)
      rw [List.getElem?_cons_succ] at there
      rw [← there, look, look, advance, Nat.add_assoc, Nat.add_comm 1]
    rw [run_of_step stepped, ih later further, advance, advance, advance, List.length_cons,
      Nat.add_assoc, Nat.add_comm 1]

/-- In a comment, a character beyond ASCII is skipped byte by byte. -/
theorem run_beyond {char : Char} (beyond : 128 ≤ char.toNat)
    (split : source.toList = read ++ char :: rest) (start line : Nat) :
    (Skip.comment start (behind read line)).run source =
      (Skip.comment start (behind (read ++ [char]) line)).run source := by
  rw [run_bytes (beyond_of_mem_encode beyond), String.length_utf8EncodeChar, ← advance_behind,
    width_cons, width_nil]
  · rfl
  · intro ahead within
    rw [look_behind split, encode_cons, List.getElem?_append_left within]

/-- Skipping by position that has come as far as skipping the text. -/
inductive Skip.Marks (source : String) : Skip → Surroundings → List Char → Nat → Prop
  | gap {read rest : List Char} {line : Nat} (split : source.toList = read ++ rest) :
      Marks source (.gap (behind read line)) .gap rest line
  | comment {read rest before inner : List Char} {line : Nat} (split : source.toList = read ++ rest)
      (opened : source.toList = before ++ '/' :: '*' :: inner) :
      Marks source (.comment (width before) (behind read line)) .comment rest line

/-- Skipping by position that has come to what skipping the text comes to. -/
inductive Stop.Marks (source : String) : Stop → GapEnd → Prop
  | reached {read rest : List Char} {line : Nat} (split : source.toList = read ++ rest) :
      Marks source (.reached (behind read line)) (.reached rest line)
  | unclosed {before inner : List Char} {line : Nat}
      (opened : source.toList = before ++ '/' :: '*' :: inner) :
      Marks source (.unclosed (width before) (behind source.toList line)) (.unclosed line)

theorem Stop.Marks.of_step {skip later : Skip} {stop : GapEnd} (stepped : skip.step source = .inl later)
    (marks : (later.run source).Marks source stop) : (skip.run source).Marks source stop := by
  rwa [run_of_step stepped]

/-- Skipping by position comes to what skipping the text comes to. -/
theorem Skip.Marks.run {skip : Skip} {surroundings : Surroundings} {text : List Char} {line : Nat}
    (marks : skip.Marks source surroundings text line) :
    (skip.run source).Marks source (skipGap surroundings text line) := by
  fun_induction skipGap surroundings text line generalizing skip with
  | case1 rest line ih | case2 rest line ih | case3 rest line ih =>
    obtain ⟨split⟩ := marks
    refine Stop.Marks.of_step ?_ (ih (.gap (split_cons split)))
    rw [Skip.step, look_ascii (by decide) split, ← advance_one (by decide)]
    rfl
  | case4 rest line ih =>
    obtain ⟨split⟩ := marks
    exact Stop.Marks.of_step (step_newline split line) (ih (.gap (split_cons split)))
  | case5 rest line ih =>
    obtain ⟨split⟩ := marks
    exact Stop.Marks.of_step (step_open split line)
      (ih (.comment (split_cons (split_cons split)) split))
  | case6 text line noBlank noTab noReturn noNewline noComment =>
    obtain ⟨split⟩ := marks
    have gapless : Gapless text := by
      constructor
      · intro char begins isBlank
        obtain ⟨later, rfl⟩ := List.head?_eq_some_iff.mp begins
        simp only [Lexer.blanks, List.mem_cons, List.not_mem_nil, or_false] at isBlank
        obtain rfl | rfl | rfl | rfl := isBlank
        · exact noBlank later rfl
        · exact noTab later rfl
        · exact noReturn later rfl
        · exact noNewline later rfl
      · rintro ⟨later, comment⟩
        exact noComment later comment.symm
    rw [run_of_stop (step_gapless split gapless line)]
    exact .reached split
  | case7 rest line ih =>
    obtain _ | ⟨split, opened⟩ := marks
    exact Stop.Marks.of_step (step_close split _ line) (ih (.gap (split_cons (split_cons split))))
  | case8 rest line ih =>
    obtain _ | ⟨split, opened⟩ := marks
    exact Stop.Marks.of_step (step_comment_newline split _ line) (ih (.comment (split_cons split) opened))
  | case9 char rest line goesOn within ih =>
    obtain _ | ⟨split, opened⟩ := marks
    have later := ih (.comment (split_cons split) opened)
    -- Within a character beyond ASCII a cursor is at the place of no text, so its bytes are skipped at
    -- once.
    by_cases beyond : 128 ≤ char.toNat
    · rwa [run_beyond beyond split]
    · have ascii : char.toNat < 128 := Nat.not_le.mp beyond
      refine Stop.Marks.of_step ?_ later
      rw [← advance_one ascii]
      refine step_comment (look_ascii ascii split line) (fun star seen => ?_) within _
      obtain ⟨after, rfl⟩ := List.head?_eq_some_iff.mp
        ((look_second_eq_some_iff ascii (by decide) split line).mp seen)
      exact goesOn after star rfl
  | case10 line =>
    obtain _ | ⟨split, opened⟩ := marks
    have whole := split.trans (List.append_nil _)
    rw [run_of_stop (step_comment_end whole _ line), ← whole]
    exact .unclosed opened

/-! ### Lexemes -/

theorem ascii_of_isDigit {char : Char} (digit : char.isDigit) : char.toNat < 128 :=
  Nat.lt_of_le_of_lt (Char.isDigit_iff_toNat.mp digit).2 (by decide)

theorem ascii_of_isAlpha {char : Char} (letter : char.isAlpha) : char.toNat < 128 := by
  obtain upper | lower : char.isUpper ∨ char.isLower := Bool.or_eq_true_iff.mp letter
  · have below : char.toNat ≤ 90 := UInt32.le_iff_toNat_le.mp (of_decide_eq_true upper).2
    omega
  · have below : char.toNat ≤ 122 :=
      UInt32.le_iff_toNat_le.mp (of_decide_eq_true (Bool.and_eq_true_iff.mp lower).2)
    omega

/-- A character beyond ASCII is of no class that lexemes are taken by. -/
theorem classes_of_beyond {char : Char} (beyond : 128 ≤ char.toNat) :
    ¬ char.isDigit ∧ ¬ char.isAlpha ∧ pairKind? char = none ∧ glyphKind? char = none := by
  refine ⟨fun digit => ?_, fun letter => ?_, ?_, ?_⟩
  · exact absurd (ascii_of_isDigit digit) (Nat.not_lt.mpr beyond)
  · exact absurd (ascii_of_isAlpha letter) (Nat.not_lt.mpr beyond)
  · unfold pairKind?
    split
    case h_5 => rfl
    all_goals exact absurd beyond (by decide)
  · unfold glyphKind?
    split
    case h_17 => rfl
    all_goals exact absurd beyond (by decide)

theorem countWhile_behind {test : Char → Bool} (ascii : ∀ char, test char → char.toNat < 128)
    (split : source.toList = read ++ rest) (line : Nat) :
    (behind read line).countWhile source test = some (width (rest.takeWhile test)) := by
  have ahead : source.toByteArray.data.toList.drop (width read) = encode rest := by
    rw [bytes_eq_encode, split, encode_append, width, List.drop_left]
  have inside : (behind read line).position ≤ source.utf8ByteSize := by
    rw [utf8ByteSize_eq_width, split, width_append]
    exact Nat.le_add_right ..
  rw [countWhile, if_pos inside, behind, ahead, takeWhile_encode ascii, width]

theorem byte?_behind {first : Char} {after : List Char} (split : source.toList = read ++ first :: after)
    (line : Nat) : byte? source (behind read line).position = some (lead first) := by
  have found := byte?_eq split 0
  rw [← List.head?_eq_getElem?, encode_cons, List.head?_append_of_ne_nil _ String.utf8EncodeChar_ne_nil,
    List.head?_eq_some_head String.utf8EncodeChar_ne_nil] at found
  exact found

/-- The lexeme at a position is the longest one of the text ahead, with its width as its length. -/
theorem lexeme?_behind {first : Char} {after : List Char} (split : source.toList = read ++ first :: after)
    (line : Nat) :
    (behind read line).lexeme? source =
      some ((munch first after).kind, width (munch first after).lexeme) := by
  have seen := byte?_behind split line
  by_cases beyond : 128 ≤ first.toNat
  · obtain ⟨notDigit, notLetter, noPair, noGlyph⟩ := classes_of_beyond (beyond_lead beyond)
    obtain ⟨otherDigit, otherLetter, otherPair, otherGlyph⟩ := classes_of_beyond beyond
    rw [munch_single otherDigit otherLetter (.inl otherPair), otherGlyph]
    simp [lexeme?, seen, notDigit, notLetter, noPair, noGlyph, strayLength_lead]
  have ascii := Nat.not_le.mp beyond
  have single := utf8Size_of_ascii ascii
  rw [lexeme?, seen]
  simp only [Option.bind_eq_bind, Option.bind_some, ofUInt8_lead ascii]
  have taken := munched first after
  generalize munch first after = longest at taken
  cases taken with
  | number digit =>
    rw [if_pos digit, countWhile_behind (fun _ => ascii_of_isDigit) split,
      List.takeWhile_cons_of_pos digit]
    rfl
  | word letter =>
    have cut : slice? source (width read) (width read + width (first :: after.takeWhile Char.isAlpha)) =
        some (String.ofList (first :: after.takeWhile Char.isAlpha)) := by
      have further : source.toList =
          read ++ ((first :: after.takeWhile Char.isAlpha) ++ after.dropWhile Char.isAlpha) := by
        rw [split, List.cons_append, List.takeWhile_append_dropWhile]
      exact slice?_eq further
    rw [if_neg (not_isDigit_of_isAlpha letter), if_pos letter,
      countWhile_behind (fun _ => ascii_of_isAlpha) split, List.takeWhile_cons_of_pos letter]
    simp only [Option.bind_some, behind, cut, String.toList_ofList]
    rfl
  | pair notDigit notLetter pair follows =>
    subst follows
    have next := (look_second_eq_some_iff ascii (by decide) split line).mpr rfl
    rw [if_neg notDigit, if_neg notLetter, next, pair, width_cons, single]
    rfl
  | single notDigit notLetter alone =>
    rw [if_neg notDigit, if_neg notLetter, width_cons, width_nil, single]
    split
    · next pair next =>
      have equals := (look_second_eq_some_iff ascii (by decide) split line).mp next
      obtain none | other := alone
      · cases none.symm.trans pair
      · exact absurd equals other
    · cases glyphKind? first with
      | none => rw [strayLength_lead, single]; rfl
      | some kind => rfl

end Cursor

end FrontEnd
