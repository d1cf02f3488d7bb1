import FrontEnd.Token.Kind
import Mathlib.Data.List.Infix

/-! # The lexical language

What a source is made of, said without the lexer. A gap is a run of blanks and comments, and each
kind of token has its lexemes. A source is read as pieces: lexemes, each with the gap behind it,
between a first gap and an ending. The ending is empty or a comment that is never closed.
-/

namespace FrontEnd.Lexer

/-! ### Gaps -/

/-- Text in which no comment is closed. -/
def CloseFree (text : List Char) : Prop :=
  ¬ ['*', '/'] <:+: text

theorem closeFree_nil : CloseFree [] := by
  simp [CloseFree]

theorem closeFree_cons {char : Char} {rest : List Char} :
    CloseFree (char :: rest) ↔ ¬ (char = '*' ∧ rest.head? = some '/') ∧ CloseFree rest := by
  have starts : ['*', '/'] <+: char :: rest ↔ char = '*' ∧ rest.head? = some '/' := by
    cases rest <;> simp [List.cons_prefix_cons, eq_comm]
  rw [CloseFree, List.infix_cons_iff, starts, not_or]
  rfl

/-- The characters that stand between lexemes. -/
def blanks : List Char := [' ', '\t', '\r', '\n']

/-- Blanks and comments, each comment up to the first closing pair after its opening one. -/
inductive Gap : List Char → Prop
  | empty : Gap []
  | blank {char : Char} {rest : List Char} (isBlank : char ∈ blanks) (more : Gap rest) :
      Gap (char :: rest)
  | comment {body rest : List Char} (first : CloseFree (body ++ ['*'])) (more : Gap rest) :
      Gap ('/' :: '*' :: (body ++ '*' :: '/' :: rest))

/-- Text that no gap begins. -/
structure Gapless (text : List Char) : Prop where
  not_blank : ∀ char ∈ text.head?, char ∉ blanks
  not_comment : ¬ ['/', '*'] <+: text

theorem gapless_nil : Gapless [] :=
  ⟨by simp, by simp⟩

/-- A gap begins with a blank or with a comment. -/
theorem Gap.head_cases {gap : List Char} (isGap : Gap gap) (nonempty : gap ≠ []) :
    (∃ char rest, gap = char :: rest ∧ char ∈ blanks) ∨ ∃ rest, gap = '/' :: '*' :: rest := by
  cases isGap with
  | empty => exact absurd rfl nonempty
  | blank isBlank _ => exact .inl ⟨_, _, rfl, isBlank⟩
  | comment _ _ => exact .inr ⟨_, rfl⟩

/-- Text that closes a comment does so for a first time. -/
theorem closeFree_or_split (text : List Char) :
    CloseFree text ∨ ∃ body rest, text = body ++ '*' :: '/' :: rest ∧ CloseFree (body ++ ['*']) := by
  induction text with
  | nil => exact .inl closeFree_nil
  | cons char later ih =>
    by_cases here : char = '*' ∧ later.head? = some '/'
    · obtain ⟨rfl, next⟩ := here
      obtain ⟨rest, rfl⟩ := List.head?_eq_some_iff.mp next
      exact .inr ⟨[], rest, rfl, closeFree_cons.mpr ⟨by simp, closeFree_nil⟩⟩
    · obtain free | ⟨body, rest, rfl, free⟩ := ih
      · exact .inl (closeFree_cons.mpr ⟨here, free⟩)
      · refine .inr ⟨char :: body, rest, rfl, closeFree_cons.mpr ⟨?_, free⟩⟩
        cases body with
        | nil => simp
        | cons second body => exact here

/-- A text is a gap and then text that no gap begins, or a gap and then a comment that is never
closed. -/
theorem exists_gap (text : List Char) :
    ∃ gap rest, Gap gap ∧ text = gap ++ rest ∧
      (Gapless rest ∨ ∃ inner, rest = '/' :: '*' :: inner ∧ CloseFree inner) := by
  induction size : text.length using Nat.strong_induction_on generalizing text with
  | h size ih =>
    subst size
    by_cases comment : ['/', '*'] <+: text
    · obtain ⟨inner, rfl⟩ := comment
      obtain free | ⟨body, after, rfl, free⟩ := closeFree_or_split inner
      · exact ⟨[], _, .empty, rfl, .inr ⟨inner, rfl, free⟩⟩
      · obtain ⟨gap, rest, isGap, rfl, ending⟩ := ih after.length (by simp; omega) after rfl
        exact ⟨_, rest, .comment free isGap, by simp, ending⟩
    · cases text with
      | nil => exact ⟨[], [], .empty, rfl, .inl gapless_nil⟩
      | cons char later =>
        by_cases isBlank : char ∈ blanks
        · obtain ⟨gap, rest, isGap, rfl, ending⟩ := ih later.length (by simp) later rfl
          exact ⟨char :: gap, rest, .blank isBlank isGap, rfl, ending⟩
        · exact ⟨[], _, .empty, rfl, .inl ⟨by simpa using isBlank, comment⟩⟩

/-! ### Lexemes -/

/-- The text of a separator. -/
def separator? : Token.Kind → Option String
  | .leftParen => some "("
  | .rightParen => some ")"
  | .leftBracket => some "["
  | .rightBracket => some "]"
  | .leftBrace => some "\x7b"
  | .rightBrace => some "\x7d"
  | .semicolon => some ";"
  | .colon => some ":"
  | .comma => some ","
  | _ => none

/-- The text of a reserved word, an operator or a separator. -/
def fixedText? (kind : Token.Kind) : Option String :=
  kind.spelling? <|> kind.glyph? <|> separator? kind

/-- The lexemes that a program can be made of. Letters and digits are those of ASCII. -/
inductive Regular : Token.Kind → List Char → Prop
  | fixed {kind : Token.Kind} {text : String} (spelled : fixedText? kind = some text) :
      Regular kind text.toList
  | identifier {word : List Char} (nonempty : word ≠ []) (letters : ∀ char ∈ word, char.isAlpha)
      (unreserved : ∀ kind : Token.Kind, kind.spelling? ≠ some (String.ofList word)) :
      Regular .identifier word
  | number {digits : List Char} (nonempty : digits ≠ []) (decimal : ∀ char ∈ digits, char.isDigit) :
      Regular .number digits

/-- The lexemes of all kinds but the end of the file and the open comment. A stray lexeme is a
single exclamation mark, or a character that begins no other lexeme and no gap. -/
inductive Lexeme : Token.Kind → List Char → Prop
  | regular {kind : Token.Kind} {text : List Char} (isRegular : Regular kind text) :
      Lexeme kind text
  | exclamation : Lexeme .stray ['!']
  | stray {char : Char} (noLexeme : ∀ kind rest, ¬ Regular kind (char :: rest))
      (noGap : ∀ rest, ¬ Gap (char :: rest)) : Lexeme .stray [char]

/-- Neither the end of the file nor a fault is part of a program. -/
theorem Regular.kind_ne {kind : Token.Kind} {text : List Char} (regular : Regular kind text) :
    kind ≠ .endOfFile ∧ kind ≠ .openComment ∧ kind ≠ .stray := by
  cases regular with
  | fixed spelled =>
    refine ⟨?_, ?_, ?_⟩ <;>
    · rintro rfl
      cases spelled
  | identifier => simp
  | number => simp

theorem Lexeme.kind_ne {kind : Token.Kind} {text : List Char} (lexeme : Lexeme kind text) :
    kind ≠ .endOfFile ∧ kind ≠ .openComment := by
  cases lexeme with
  | regular isRegular => exact ⟨isRegular.kind_ne.1, isRegular.kind_ne.2.1⟩
  | exclamation => simp
  | stray => simp

/-- A character that a lexeme would take in if it stood behind it, or that would make a comment of
a slash. -/
inductive Prolongs : List Char → Char → Prop
  | letter {word : List Char} {next : Char} (letters : ∀ char ∈ word, char.isAlpha)
      (more : next.isAlpha) : Prolongs word next
  | digit {digits : List Char} {next : Char} (decimal : ∀ char ∈ digits, char.isDigit)
      (more : next.isDigit) : Prolongs digits next
  | equals {char : Char} (comparison : char ∈ ['=', '<', '>', '!']) : Prolongs [char] '='
  | comment : Prolongs ['/'] '*'

theorem prolongs_iff {text : List Char} {next : Char} :
    Prolongs text next ↔
      (text.all Char.isAlpha ∧ next.isAlpha) ∨ (text.all Char.isDigit ∧ next.isDigit) ∨
        (text ∈ [['='], ['<'], ['>'], ['!']] ∧ next = '=') ∨ (text = ['/'] ∧ next = '*') := by
  constructor
  · rintro (⟨letters, more⟩ | ⟨decimal, more⟩ | comparison | _)
    · exact .inl ⟨List.all_eq_true.mpr letters, more⟩
    · exact .inr (.inl ⟨List.all_eq_true.mpr decimal, more⟩)
    · exact .inr (.inr (.inl ⟨by simpa using comparison, rfl⟩))
    · exact .inr (.inr (.inr ⟨rfl, rfl⟩))
  · rintro (⟨letters, more⟩ | ⟨decimal, more⟩ | ⟨comparison, rfl⟩ | ⟨rfl, rfl⟩)
    · exact .letter (List.all_eq_true.mp letters) more
    · exact .digit (List.all_eq_true.mp decimal) more
    · simp only [List.mem_cons, List.not_mem_nil, or_false] at comparison
      obtain rfl | rfl | rfl | rfl := comparison <;> exact .equals (by simp)
    · exact .comment

instance (text : List Char) (next : Char) : Decidable (Prolongs text next) :=
  decidable_of_iff _ prolongs_iff.symm

/-! ### Pieces -/

/-- A lexeme of a kind with the gap behind it. -/
structure Piece where
  kind : Token.Kind
  text : List Char
  gap : List Char

namespace Piece

/-- The text is a lexeme of the kind, and only blanks and comments follow. -/
structure Valid (piece : Piece) : Prop where
  lexeme : Lexeme piece.kind piece.text
  gap : Gap piece.gap

/-- The text of pieces in a row in front of an ending. -/
def weave (ending : List Char) : List Piece → List Char
  | [] => ending
  | piece :: rest => piece.text ++ (piece.gap ++ weave ending rest)

/-- What follows a lexeme never prolongs it. -/
def Longest (ending : List Char) : List Piece → Prop
  | [] => True
  | piece :: rest =>
    (∀ next ∈ (piece.gap ++ weave ending rest).head?, ¬ Prolongs piece.text next) ∧
      Longest ending rest

def entry (piece : Piece) : Token.Kind × String :=
  (piece.kind, String.ofList piece.text)

end Piece

end FrontEnd.Lexer
