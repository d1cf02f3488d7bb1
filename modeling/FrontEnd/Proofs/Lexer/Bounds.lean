import FrontEnd.Proofs.Lexer.Position
import FrontEnd.Proofs.Scanner.Pulls

/-! # Within the source

A cursor is at the place of a lexer when the bytes before it are those of the text that is read. It
stays there from token to token, so it is always on a boundary of the source, at most at its end, and
every byte and every cut that the next token takes is there: the opening pair of a comment that is
never closed, the letters of a word, the lexeme itself. The length that is chosen for a lexeme is
never beyond the source, because the one that the first byte of a character tells is that of the
whole character.
-/

namespace FrontEnd.Cursor

open Lexer Text

variable {source : String} {read rest : List Char} {cursor here last : Cursor}

/-! ### Lexemes -/

/-- The bytes and the cuts that a lexeme of a kind, a length and a text is taken by. -/
structure Taken (source : String) (here : Cursor) (kind : Token.Kind) (length : Nat) (text : String) :
    Prop where
  first : ∃ lead, byte? source here.position = some lead
  chosen : here.lexeme? source = some (kind, length)
  positive : 0 < length
  inside : here.position + length ≤ source.utf8ByteSize
  cut : slice? source here.position (here.position + length) = some text
  /-- A word is as long as there are letters. -/
  word {lead : UInt8} (seen : byte? source here.position = some lead)
    (letter : (Char.ofUInt8 lead).isAlpha) : here.countWhile source Char.isAlpha = some length
  /-- A stray lexeme is a single character, as long as its first byte tells. -/
  stray (stray : kind = .stray) : ∃ char, byte? source here.position = some (lead char) ∧
    length = strayLength (lead char) ∧ length = char.utf8Size ∧ text = String.singleton char

/-- Behind whole characters, the longest lexeme is taken. -/
theorem taken_behind {first : Char} {after : List Char} (split : source.toList = read ++ first :: after)
    (line : Nat) :
    (behind read line).Taken source (munch first after).kind (width (munch first after).lexeme)
      (String.ofList (munch first after).lexeme) := by
  have seen := byte?_behind split line
  have further : source.toList = read ++ ((munch first after).lexeme ++ (munch first after).rest) := by
    rw [munch_append, split]
  constructor
  case first => exact ⟨_, seen⟩
  case chosen => exact lexeme?_behind split line
  case positive =>
    obtain ⟨char, more, shape⟩ := List.exists_cons_of_ne_nil (munch_lexeme_ne_nil first after)
    rw [shape, width_cons]
    exact Nat.add_pos_left char.utf8Size_pos _
  case inside =>
    rw [utf8ByteSize_eq_width, further, width_append, width_append, ← Nat.add_assoc]
    exact Nat.le_add_right ..
  case cut => exact slice?_eq further
  case word =>
    intro byte found letter
    obtain rfl : lead first = byte := Option.some.inj (seen.symm.trans found)
    have ascii : first.toNat < 128 := by
      refine Nat.not_le.mp fun beyond => ?_
      exact absurd (ascii_of_isAlpha letter) (Nat.not_lt.mpr (beyond_lead beyond))
    rw [ofUInt8_lead ascii] at letter
    rw [munch_of_isAlpha letter, countWhile_behind (fun _ => ascii_of_isAlpha) split,
      List.takeWhile_cons_of_pos letter]
  case stray =>
    intro stray
    rw [lexeme_of_stray stray, width_cons, width_nil]
    exact ⟨first, seen, (strayLength_lead first).symm, rfl, rfl⟩

/-! ### Tokens -/

theorem next_of_unclosed {start : Nat} {marker : String}
    (stopped : (Skip.gap cursor).run source = .unclosed start last)
    (cut : slice? source start (start + 2) = some marker) :
    cursor.next source = some (⟨.openComment, marker, last.line⟩, last) := by
  rw [next, stopped]
  dsimp only
  rw [cut]
  rfl

theorem next_of_atEnd (stopped : (Skip.gap cursor).run source = .reached here)
    (ended : here.atEnd source) : cursor.next source = some (⟨.endOfFile, "", here.line⟩, here) := by
  rw [next, stopped]
  exact if_pos ended

/-- A lexeme that is taken is the next token, at its full length. -/
theorem next_of_taken {kind : Token.Kind} {length : Nat} {text : String}
    (stopped : (Skip.gap cursor).run source = .reached here) (taken : here.Taken source kind length text) :
    cursor.next source = some (⟨kind, text, here.line⟩, here.advance length) := by
  have more : ¬ here.atEnd source := by
    have := taken.positive
    have := taken.inside
    simp only [atEnd, decide_eq_true_eq]
    omega
  rw [next, stopped]
  dsimp only
  rw [if_neg more, taken.chosen]
  simp only [Option.bind_eq_bind, Option.bind_some, Nat.min_eq_left taken.inside, taken.cut]
  rfl

/-- A cursor at the place of a lexer: the bytes before it are those of the text that is read. -/
structure Marks (source : String) (cursor : Cursor) (lexer : Lexer) : Prop where
  line : cursor.line = lexer.line
  passed : ∃ read, source.toList = read ++ lexer.rest ∧
    cursor.position = (String.ofList read).utf8ByteSize

theorem marks_behind (split : source.toList = read ++ rest) (line : Nat) :
    (behind read line).Marks source ⟨rest, line⟩ :=
  ⟨rfl, read, split, (utf8ByteSize_ofList read).symm⟩

theorem marks_start (source : String) : (start source).Marks source (ofSource source.toList) := by
  refine ⟨?_, [], rfl, rfl⟩
  have same : source.isEmpty = source.toList.isEmpty := by
    rw [Bool.eq_iff_iff]
    simp
  rw [start, ofSource, same]

theorem Marks.exists_behind {lexer : Lexer} (marks : cursor.Marks source lexer) :
    ∃ read, source.toList = read ++ lexer.rest ∧ cursor = behind read lexer.line := by
  obtain ⟨line, read, split, position⟩ := marks
  refine ⟨read, split, ?_⟩
  obtain ⟨_, _⟩ := cursor
  simp only at line position
  rw [behind, line, position, utf8ByteSize_ofList]

/-- How skipping ends by position and in the text. -/
theorem Marks.run {lexer : Lexer} (marks : cursor.Marks source lexer) :
    ((Skip.gap cursor).run source).Marks source (skipGap .gap lexer.rest lexer.line) := by
  obtain ⟨read, split, rfl⟩ := marks.exists_behind
  exact Skip.Marks.run (.gap split)

theorem marker_cut {before inner : List Char} (opened : source.toList = before ++ '/' :: '*' :: inner) :
    slice? source (width before) (width before + 2) = some "/*" := by
  have split : source.toList = before ++ (['/', '*'] ++ inner) := opened
  exact slice?_eq split

/-- A token that is taken by position is the next one of the text. -/
theorem Marks.next {lexer : Lexer} (marks : cursor.Marks source lexer) :
    ∃ later, cursor.next source = some (lexer.step.1, later) ∧ later.Marks source lexer.step.2 := by
  have stops := marks.run
  rw [step]
  generalize stopped : (Skip.gap cursor).run source = stop at stops
  generalize skipGap .gap lexer.rest lexer.line = ending at stops
  cases stops with
  | @unclosed before inner line opened =>
    exact ⟨_, next_of_unclosed stopped (marker_cut opened), marks_behind (List.append_nil _).symm line⟩
  | @reached read rest line split =>
    cases rest with
    | nil => exact ⟨_, next_of_atEnd stopped (atEnd_behind split line), marks_behind split line⟩
    | cons first after =>
      refine ⟨_, next_of_taken stopped (taken_behind split line), ?_⟩
      rw [advance_behind]
      exact marks_behind (by rw [List.append_assoc, munch_append, split]) line

/-- What holds of a cursor when every byte and every cut that its next token takes is there. -/
structure Safe (source : String) (cursor : Cursor) : Prop where
  inside : cursor.position ≤ source.utf8ByteSize
  boundary : String.Pos.Raw.IsValid source ⟨cursor.position⟩
  marker {start : Nat} {last : Cursor} (stopped : (Skip.gap cursor).run source = .unclosed start last) :
    slice? source start (start + 2) = some "/*" ∧
      cursor.next source = some (⟨.openComment, "/*", last.line⟩, last)
  lexeme {here : Cursor} (stopped : (Skip.gap cursor).run source = .reached here)
      (more : ¬ here.atEnd source) :
    ∃ kind length text, here.Taken source kind length text ∧
      cursor.next source = some (⟨kind, text, here.line⟩, here.advance length)

theorem Marks.safe {lexer : Lexer} (marks : cursor.Marks source lexer) : cursor.Safe source := by
  have stops := marks.run
  generalize skipGap .gap lexer.rest lexer.line = ending at stops
  obtain ⟨read, split, rfl⟩ := marks.exists_behind
  constructor
  case inside =>
    rw [utf8ByteSize_eq_width, split, width_append]
    exact Nat.le_add_right ..
  case boundary => exact isValid_width split
  case marker =>
    intro start last stopped
    rw [stopped] at stops
    obtain _ | ⟨opened⟩ := stops
    exact ⟨marker_cut opened, next_of_unclosed stopped (marker_cut opened)⟩
  case lexeme =>
    intro here stopped more
    rw [stopped] at stops
    obtain @⟨read, rest, line, split⟩ := stops
    obtain ⟨first, after, rfl⟩ : ∃ first after, rest = first :: after := by
      refine List.exists_cons_of_ne_nil fun none => more ?_
      rw [atEnd_behind split, none, List.isEmpty_nil]
    have taken := taken_behind split line
    exact ⟨_, _, _, taken, next_of_taken stopped taken⟩

/-- Tokens that are taken by position are those of the text. -/
theorem Marks.pulls (session : Session Lexer) (marks : cursor.Marks source session.scanner)
    (count : Nat) :
    ∃ later, cursor.pulls source count = some ((session.pulls count).1.map Prod.fst, later) ∧
      later.Marks source (session.pulls count).2.scanner := by
  induction count generalizing cursor session with
  | zero => exact ⟨cursor, rfl, marks⟩
  | succ count ih =>
    obtain ⟨second, taken, marks⟩ := marks.next
    obtain ⟨later, more, marks⟩ := ih session.pull.2 marks
    refine ⟨later, ?_, marks⟩
    rw [Cursor.pulls, taken]
    simp only [Option.bind_eq_bind, Option.bind_some, more]
    rfl

/-- A stray token is a single character. -/
theorem lexeme_step_of_stray {lexer : Lexer} (stray : lexer.step.1.kind = .stray) :
    ∃ char, lexer.step.1.lexeme = String.singleton char := by
  unfold step at stray ⊢
  split at stray
  · cases stray
  · cases stray
  · next first _ _ _ => exact ⟨first, congrArg String.ofList (lexeme_of_stray stray)⟩

/-- However many tokens are taken of a source, they can be taken by position; the cursor behind them is
inside of the source and on a boundary, every byte and every cut that the next token takes is there,
and if that token is stray it is a single character. -/
theorem safe_pulls (source : String) (status : Status) (count : Nat) :
    let pulled := (Lexer.session source status).pulls count
    let following := pulled.2.pull
    ∃ cursor, (start source).pulls source count = some (pulled.1.map Prod.fst, cursor) ∧
      cursor.Marks source pulled.2.scanner ∧ cursor.Safe source ∧
      (∃ later, cursor.next source = some (following.1, later) ∧
        later.Marks source following.2.scanner) ∧
      (following.1.kind = .stray → ∃ char, following.1.lexeme = String.singleton char) := by
  intro pulled following
  obtain ⟨cursor, taken, marks⟩ := Marks.pulls (Lexer.session source status) (marks_start source) count
  exact ⟨cursor, taken, marks, marks.safe, marks.next, lexeme_step_of_stray⟩

end FrontEnd.Cursor
