import FrontEnd.Token.Kind

/-! # The longest lexeme

At the start of a text that is not a gap, the longest lexeme is a run of digits, a run of letters,
a character with an equals sign behind it, a single glyph, or else one character that belongs to
no lexeme. Letters and digits are those of ASCII.
-/

namespace FrontEnd.Lexer

/-- A lexeme at the start of a text, and the text behind it. -/
structure Munch where
  kind : Token.Kind
  lexeme : List Char
  rest : List Char
deriving DecidableEq, Repr

/-- The lexemes of one character. -/
def glyphKind? : Char → Option Token.Kind
  | '(' => some .leftParen
  | ')' => some .rightParen
  | '[' => some .leftBracket
  | ']' => some .rightBracket
  | '{' => some .leftBrace
  | '}' => some .rightBrace
  | ';' => some .semicolon
  | ':' => some .colon
  | ',' => some .comma
  | '+' => some .plus
  | '-' => some .minus
  | '*' => some .times
  | '/' => some .divide
  | '=' => some .assign
  | '<' => some .less
  | '>' => some .greater
  | _ => none

/-- The lexemes of a character and an equals sign behind it. -/
def pairKind? : Char → Option Token.Kind
  | '=' => some .equal
  | '!' => some .notEqual
  | '<' => some .lessOrEqual
  | '>' => some .greaterOrEqual
  | _ => none

def wordKind (word : List Char) : Token.Kind :=
  (Token.Kind.ofSpelling? (String.ofList word)).getD .identifier

/-- The longest lexeme at the start of a text, given by its first character and the rest. -/
def munch (first : Char) (after : List Char) : Munch :=
  if first.isDigit then
    ⟨.number, first :: after.takeWhile Char.isDigit, after.dropWhile Char.isDigit⟩
  else if first.isAlpha then
    let word := first :: after.takeWhile Char.isAlpha
    ⟨wordKind word, word, after.dropWhile Char.isAlpha⟩
  else
    match pairKind? first, after with
    | some kind, '=' :: rest => ⟨kind, [first, '='], rest⟩
    | _, _ => ⟨(glyphKind? first).getD .stray, [first], after⟩

/-- A lexeme and the text behind it make up the text. -/
theorem munch_append (first : Char) (after : List Char) :
    (munch first after).lexeme ++ (munch first after).rest = first :: after := by
  unfold munch
  split
  · simp
  · split
    · simp
    · split <;> simp

/-- A lexeme begins with the first character of the text. -/
theorem munch_lexeme_ne_nil (first : Char) (after : List Char) :
    (munch first after).lexeme ≠ [] := by
  unfold munch
  split
  · simp
  · split
    · simp
    · split <;> simp

/-- Taking a lexeme shortens the text. -/
theorem length_munch_rest_lt (first : Char) (after : List Char) :
    (munch first after).rest.length < (first :: after).length := by
  have whole := congrArg List.length (munch_append first after)
  have nonempty := List.length_pos_iff.mpr (munch_lexeme_ne_nil first after)
  rw [List.length_append] at whole
  omega

end FrontEnd.Lexer
