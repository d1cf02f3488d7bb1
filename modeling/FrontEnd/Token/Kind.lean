/-! # Kinds of token

The closed set of lexical categories. Each kind has a stable integer code, which is its place in
the declaration, and a fixed label. Operators also have a glyph.
-/

namespace FrontEnd

/-- The lexical category of a token. -/
inductive Token.Kind where
  | endOfFile
  /-- A character that begins no lexeme. -/
  | stray
  /-- A comment that is never closed. -/
  | openComment
  | ifWord
  | elseWord
  | returnWord
  | whileWord
  | forWord
  | intWord
  | voidWord
  | charWord
  /-- A run of letters that is not a reserved word. -/
  | identifier
  | number
  | assign
  | equal
  | notEqual
  | less
  | lessOrEqual
  | greater
  | greaterOrEqual
  | plus
  | minus
  | times
  | divide
  | leftParen
  | rightParen
  | leftBracket
  | rightBracket
  | leftBrace
  | rightBrace
  | semicolon
  | colon
  | comma
deriving DecidableEq, Repr

namespace Token.Kind

/-- Every kind, ordered by code. -/
def all : List Kind :=
  [endOfFile, stray, openComment, ifWord, elseWord, returnWord, whileWord, forWord, intWord,
    voidWord, charWord, identifier, number, assign, equal, notEqual, less, lessOrEqual, greater,
    greaterOrEqual, plus, minus, times, divide, leftParen, rightParen, leftBracket, rightBracket,
    leftBrace, rightBrace, semicolon, colon, comma]

def code (kind : Kind) : Nat :=
  kind.ctorIdx

def ofCode? : Int → Option Kind
  | .ofNat code => all[code]?
  | .negSucc _ => none

/-- The label of a kind in listings, whatever the lexeme. -/
def label : Kind → String
  | endOfFile => "EOF"
  | stray => "ERROR"
  | openComment => "COMMENT_ERROR"
  | ifWord => "IF"
  | elseWord => "ELSE"
  | returnWord => "RETURN"
  | whileWord => "WHILE"
  | forWord => "FOR"
  | intWord => "INT"
  | voidWord => "VOID"
  | charWord => "CHAR"
  | identifier => "ID"
  | number => "NUM"
  | assign => "ASSIGN"
  | equal => "EQ"
  | notEqual => "NEQ"
  | less => "LT"
  | lessOrEqual => "LTE"
  | greater => "GT"
  | greaterOrEqual => "GTE"
  | plus => "PLUS"
  | minus => "MINUS"
  | times => "TIMES"
  | divide => "OVER"
  | leftParen => "LPAREN"
  | rightParen => "RPAREN"
  | leftBracket => "LSQUAREB"
  | rightBracket => "RSQUAREB"
  | leftBrace => "LCURLY"
  | rightBrace => "RCURLY"
  | semicolon => "SEMICOLON"
  | colon => "COLON"
  | comma => "COMMA"

def ofLabel? (label : String) : Option Kind :=
  all.find? fun kind => kind.label == label

/-- The glyph of an operator; the other kinds have none. -/
def glyph? : Kind → Option String
  | assign => some "="
  | equal => some "=="
  | notEqual => some "!="
  | less => some "<"
  | lessOrEqual => some "<="
  | greater => some ">"
  | greaterOrEqual => some ">="
  | plus => some "+"
  | minus => some "-"
  | times => some "*"
  | divide => some "/"
  | _ => none

/-- Operators are the kinds that have a glyph. -/
def isOperator (kind : Kind) : Bool :=
  kind.glyph?.isSome

/-- The text that names a kind as the operator of an expression. -/
def operatorText (kind : Kind) : String :=
  kind.glyph?.getD "Not assigned OP token"

def operatorLine (kind : Kind) : String :=
  kind.operatorText ++ "\n"

def spelling? : Kind → Option String
  | ifWord => some "if"
  | elseWord => some "else"
  | returnWord => some "return"
  | whileWord => some "while"
  | forWord => some "for"
  | intWord => some "int"
  | voidWord => some "void"
  | charWord => some "char"
  | _ => none

/-- Reserved words are the kinds with a fixed spelling in letters. -/
def isReserved (kind : Kind) : Bool :=
  kind.spelling?.isSome

def ofSpelling? (word : String) : Option Kind :=
  all.find? fun kind => kind.spelling? == some word

/-- The kinds that report a fault in the source. -/
def isFault : Kind → Bool
  | stray | openComment => true
  | _ => false

@[simp] theorem getElem?_all_code (kind : Kind) : all[kind.code]? = some kind := by
  cases kind <;> rfl

@[simp] theorem ofCode?_code (kind : Kind) : ofCode? kind.code = some kind :=
  getElem?_all_code kind

theorem mem_all (kind : Kind) : kind ∈ all :=
  List.mem_of_getElem? (getElem?_all_code kind)

end FrontEnd.Token.Kind
