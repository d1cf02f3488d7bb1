import FrontEnd.Text.Column
import FrontEnd.Token.Kind

/-! # Tokens

A token is a kind, the text it matched and the line that text ends on. Its row in a listing shows
the label and the lexeme in columns.
-/

namespace FrontEnd

/-- A lexeme of the language with its category and its line, counted from one. -/
structure Token where
  kind : Token.Kind
  lexeme : String
  line : Nat
deriving DecidableEq, Repr

namespace Token

def columnWidth : Nat := 20

/-- The label and the lexeme of a token in columns. -/
def rowOf (kind : Kind) (lexeme : String) : String :=
  Text.alignLeft columnWidth kind.label ++ Text.alignLeft columnWidth lexeme ++ "\n"

/-- The row of a token, without its line. -/
def row (token : Token) : String :=
  rowOf token.kind token.lexeme

/-- The row of a token given by the code of its kind; an unassigned code is named instead. -/
def rowOfCode (code : Int) (lexeme : String) : String :=
  match Kind.ofCode? code with
  | some kind => rowOf kind lexeme
  | none => "Unknown token: " ++ toString code ++ "\n"

def numberedRow (token : Token) : String :=
  Text.alignLeft columnWidth (toString token.line) ++ token.row

end FrontEnd.Token
