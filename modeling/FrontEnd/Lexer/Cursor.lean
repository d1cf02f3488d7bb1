import FrontEnd.Lexer.Basic

/-! # Scanning by position

A source is stored as bytes, one to four for each of its characters. A cursor scans it by position,
without taking it apart into characters: it looks at single bytes, skips gaps byte by byte and cuts
lexemes out between two positions. To read a byte past the end has no result, and neither has a cut
that is out of range or that goes through a character.
-/

namespace FrontEnd

/-- A position in a source, counted in bytes, and the line there. -/
structure Cursor where
  position : Nat
  line : Nat
deriving DecidableEq, Repr

namespace Cursor

/-! ### Looking and cutting -/

def byte? (source : String) (position : Nat) : Option UInt8 :=
  source.toByteArray[position]?

/-- The text between two positions. -/
def slice? (source : String) (start stop : Nat) : Option String :=
  if cut : String.Pos.Raw.IsValid source ⟨start⟩ ∧ String.Pos.Raw.IsValid source ⟨stop⟩ ∧
      start ≤ stop then
    some (source.extract ⟨⟨start⟩, cut.1⟩ ⟨⟨stop⟩, cut.2.1⟩)
  else none

/-- The byte that is a number of bytes ahead, as a character. The bytes of a character beyond ASCII
stand for characters beyond ASCII too, though not for that one. -/
def look (source : String) (cursor : Cursor) (ahead : Nat) : Option Char :=
  (byte? source (cursor.position + ahead)).map Char.ofUInt8

def atEnd (source : String) (cursor : Cursor) : Bool :=
  source.utf8ByteSize ≤ cursor.position

/-- A cursor at the start of a source; an empty source has no lines. -/
def start (source : String) : Cursor :=
  ⟨0, if source.isEmpty then 0 else 1⟩

def advance (cursor : Cursor) (bytes : Nat) : Cursor :=
  { cursor with position := cursor.position + bytes }

/-- Move on over a newline, which leads to the next line only when more source follows. -/
def newline (source : String) (cursor : Cursor) : Cursor :=
  let beyond := cursor.advance 1
  if beyond.atEnd source then beyond else { beyond with line := beyond.line + 1 }

/-! ### Gaps -/

/-- How far skipping has come. -/
inductive Skip where
  | gap (cursor : Cursor)
  /-- Inside a comment whose opening pair is at a position. -/
  | comment (start : Nat) (cursor : Cursor)
deriving DecidableEq, Repr

/-- What skipping comes to. -/
inductive Stop where
  /-- A lexeme or the end of the source. -/
  | reached (cursor : Cursor)
  /-- The end of the source, inside a comment whose opening pair is at a position. -/
  | unclosed (start : Nat) (cursor : Cursor)
deriving DecidableEq, Repr

def Stop.cursor : Stop → Cursor
  | reached cursor | unclosed _ cursor => cursor

namespace Skip

def cursor : Skip → Cursor
  | gap cursor | comment _ cursor => cursor

/-- Skip a byte, or the two bytes that open or close a comment. -/
def step (source : String) : Skip → Skip ⊕ Stop
  | gap cursor =>
    match cursor.look source 0 with
    | some ' ' | some '\t' | some '\r' => .inl (gap (cursor.advance 1))
    | some '\n' => .inl (gap (cursor.newline source))
    | some '/' =>
      if cursor.look source 1 = some '*' then .inl (comment cursor.position (cursor.advance 2))
      else .inr (.reached cursor)
    | _ => .inr (.reached cursor)
  | comment start cursor =>
    match cursor.look source 0 with
    | none => .inr (.unclosed start cursor)
    | some '*' =>
      if cursor.look source 1 = some '/' then .inl (gap (cursor.advance 2))
      else .inl (comment start (cursor.advance 1))
    | some '\n' => .inl (comment start (cursor.newline source))
    | some _ => .inl (comment start (cursor.advance 1))

theorem inside_of_look {source : String} {cursor : Cursor} {char : Char}
    (seen : cursor.look source 0 = some char) : cursor.position < source.utf8ByteSize := by
  obtain ⟨byte, found, -⟩ := Option.map_eq_some_iff.mp seen
  exact (getElem?_eq_some_iff.mp found).1

theorem position_lt_newline (source : String) (cursor : Cursor) :
    cursor.position < (cursor.newline source).position := by
  unfold newline
  dsimp only
  split <;> exact Nat.lt_succ_self _

theorem position_lt_advance (cursor : Cursor) (bytes : Nat) :
    cursor.position < (cursor.advance (bytes + 1)).position :=
  Nat.lt_add_of_pos_right (Nat.succ_pos bytes)

/-- Every step begins inside of the source and leads further into it. -/
theorem step_advances {source : String} {skip later : Skip} (stepped : skip.step source = .inl later) :
    skip.cursor.position < source.utf8ByteSize ∧ skip.cursor.position < later.cursor.position := by
  revert stepped
  fun_cases step source skip with
  | case1 _ seen | case2 _ seen | case3 _ seen | case5 _ seen | case9 _ _ seen | case10 _ _ seen =>
    rintro ⟨⟩
    exact ⟨inside_of_look seen, position_lt_advance ..⟩
  | case4 _ seen | case11 _ _ seen =>
    rintro ⟨⟩
    exact ⟨inside_of_look seen, position_lt_newline ..⟩
  | case12 _ _ _ _ _ seen =>
    rintro ⟨⟩
    exact ⟨inside_of_look seen, position_lt_advance ..⟩
  | case6 | case7 | case8 => nofun

/-- Skip step by step until a lexeme or the end of the source. -/
def run (source : String) (skip : Skip) : Stop :=
  match _stepped : skip.step source with
  | .inl later => run source later
  | .inr stop => stop
termination_by source.utf8ByteSize - skip.cursor.position
decreasing_by
  obtain ⟨inside, further⟩ := step_advances ‹_›
  omega

end Skip

/-! ### Lexemes -/

/-- The number of bytes in a row that pass a test. -/
def countWhile (source : String) (cursor : Cursor) (test : Char → Bool) : Option Nat :=
  if cursor.position ≤ source.utf8ByteSize then
    some ((source.toByteArray.data.toList.drop cursor.position).takeWhile
      fun byte => test (Char.ofUInt8 byte)).length
  else none

/-- The length of a character that belongs to no lexeme, told by its first byte. -/
def strayLength (lead : UInt8) : Nat :=
  if lead &&& 0b11110000 = 0b11110000 then 4
  else if lead &&& 0b11100000 = 0b11100000 then 3
  else if lead &&& 0b11000000 = 0b11000000 then 2
  else 1

/-- The kind and the length of the lexeme at the cursor. -/
def lexeme? (source : String) (cursor : Cursor) : Option (Token.Kind × Nat) := do
  let lead ← byte? source cursor.position
  let first := Char.ofUInt8 lead
  if first.isDigit then
    let length ← cursor.countWhile source Char.isDigit
    pure (.number, length)
  else if first.isAlpha then
    let length ← cursor.countWhile source Char.isAlpha
    let word ← slice? source cursor.position (cursor.position + length)
    pure (Lexer.wordKind word.toList, length)
  else
    match Lexer.pairKind? first, cursor.look source 1 with
    | some kind, some '=' => pure (kind, 2)
    | _, _ =>
      match Lexer.glyphKind? first with
      | some kind => pure (kind, 1)
      | none => pure (.stray, strayLength lead)

/-- The next token, and the cursor behind it. -/
def next (source : String) (cursor : Cursor) : Option (Token × Cursor) :=
  match (Skip.gap cursor).run source with
  | .unclosed start last => do
    let marker ← slice? source start (start + 2)
    pure (⟨.openComment, marker, last.line⟩, last)
  | .reached here =>
    if here.atEnd source then pure (⟨.endOfFile, "", here.line⟩, here)
    else do
      let (kind, length) ← here.lexeme? source
      let stop := min (here.position + length) source.utf8ByteSize
      let lexeme ← slice? source here.position stop
      pure (⟨kind, lexeme, here.line⟩, { here with position := stop })

/-- A number of tokens in a row, and the cursor behind them. -/
def pulls (source : String) : Nat → Cursor → Option (List Token × Cursor)
  | 0, cursor => pure ([], cursor)
  | count + 1, cursor => do
    let (token, later) ← cursor.next source
    let (tokens, last) ← pulls source count later
    pure (token :: tokens, last)

end Cursor

end FrontEnd
