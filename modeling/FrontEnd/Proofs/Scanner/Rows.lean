import FrontEnd.Proofs.Lexer.Line
import FrontEnd.Proofs.Scanner.Transparent

/-! # The rows of a transcript

A transcript is made of rows, each on a line of its own: every token has its row, and every line that
is to be echoed has one too once the end of the file is reached. A row can be read back from its line.
Both kinds begin with a number, but only behind that of an echoed line there is a colon. The columns of
a token are words, since neither its label nor its lexeme has a blank in it.
-/

namespace FrontEnd

namespace Transcriber

/-- A row of a transcript. -/
inductive Row where
  | echoed (numbered : Nat × String)
  | scanned (token : Token)
deriving DecidableEq, Repr

namespace Row

/-- Text in a column of its own, which is twenty characters wide. -/
def column (text : String) : String :=
  text ++ String.ofList (List.replicate (20 - text.length) ' ')

/-- The text of a row. The number of an echoed line ends in the fourth column, and a colon stands
behind it. A token has columns for its line, its label and its lexeme. -/
def text : Row → String
  | echoed (number, line) =>
    String.ofList (List.replicate (4 - (toString number).length) ' ') ++ toString number ++ ": " ++
      line ++ "\n"
  | scanned token =>
    column (toString token.line) ++ (column token.kind.label ++ column token.lexeme ++ "\n")

def token? : Row → Option Token
  | echoed _ => none
  | scanned token => some token

/-- The numbered line that a row shows, if it shows one. -/
def line? : Row → Option (Nat × String)
  | echoed numbered => some numbered
  | scanned _ => none

def join (rows : List Row) : String :=
  String.join (rows.map text)

theorem text_echoed (numbered : Nat × String) : (echoed numbered).text = echoRow numbered := rfl

theorem text_scanned (token : Token) : (scanned token).text = token.numberedRow := rfl

end Row

/-- The rows that tokens bring into a listing while lines are still to be echoed. -/
def rows (pending : List (Nat × String)) : List Token → List Row
  | [] => []
  | token :: rest =>
    (pending.takeWhile (isDue token)).map .echoed ++
      .scanned token :: rows (pending.dropWhile (isDue token)) rest

/-- The lines that are still to be echoed behind tokens. -/
def left (pending : List (Nat × String)) (shown : List Token) : List (Nat × String) :=
  shown.foldl (fun pending token => pending.dropWhile (isDue token)) pending

theorem left_nil (shown : List Token) : left [] shown = [] := by
  induction shown with
  | nil => rfl
  | cons token rest ih => exact ih

/-- No line is left behind the end of the file. -/
theorem left_of_ended (pending : List (Nat × String)) {shown : List Token}
    (ended : ∃ token ∈ shown, token.kind = .endOfFile) : left pending shown = [] := by
  obtain ⟨last, member, isLast⟩ := ended
  obtain ⟨before, after, rfl⟩ := List.append_of_mem member
  have all : (left pending before).dropWhile (isDue last) = [] := by
    rw [List.dropWhile_eq_nil_iff]
    intro numbered _
    simp [isDue, isLast]
  calc left pending (before ++ last :: after)
      = left ((left pending before).dropWhile (isDue last)) after := List.foldl_append
    _ = [] := by rw [all, left_nil]

/-- The rows of some tokens and then more begin with the rows of the first. -/
theorem rows_append (pending : List (Nat × String)) (first second : List Token) :
    rows pending (first ++ second) = rows pending first ++ rows (left pending first) second := by
  induction first generalizing pending with
  | nil => rfl
  | cons token rest ih =>
    simp only [List.cons_append, rows, ih, List.append_assoc]
    rfl

/-! ### What the rows show -/

theorem token?_rows (pending : List (Nat × String)) (shown : List Token) :
    (rows pending shown).filterMap Row.token? = shown := by
  induction shown generalizing pending with
  | nil => rfl
  | cons token rest ih =>
    have echoes (lines : List (Nat × String)) : (lines.map Row.echoed).filterMap Row.token? = [] := by
      simp [List.filterMap_map, Function.comp_def, Row.token?]
    rw [rows, List.filterMap_append, echoes, List.nil_append, List.filterMap_cons, ih]
    rfl

/-- A line is echoed, or it is still left. -/
theorem line?_rows_append_left (pending : List (Nat × String)) (shown : List Token) :
    (rows pending shown).filterMap Row.line? ++ left pending shown = pending := by
  induction shown generalizing pending with
  | nil => rfl
  | cons token rest ih =>
    have echoes (lines : List (Nat × String)) :
        (lines.map Row.echoed).filterMap Row.line? = lines := by
      simp [List.filterMap_map, Function.comp_def, Row.line?]
    have behind : left pending (token :: rest) = left (pending.dropWhile (isDue token)) rest := rfl
    rw [rows, List.filterMap_append, echoes, List.filterMap_cons, behind]
    simp only [Row.line?, List.append_assoc, ih, List.takeWhile_append_dropWhile]

/-- The end of the file brings out the lines that are left, so each line is echoed exactly once. -/
theorem line?_rows (pending : List (Nat × String)) {shown : List Token}
    (ended : ∃ token ∈ shown, token.kind = .endOfFile) :
    (rows pending shown).filterMap Row.line? = pending := by
  have all := line?_rows_append_left pending shown
  rwa [left_of_ended pending ended, List.append_nil] at all

theorem forall_rows {property : Row → Prop} {pending : List (Nat × String)} {shown : List Token}
    (ended : ∃ token ∈ shown, token.kind = .endOfFile)
    (lines : ∀ numbered ∈ pending, property (.echoed numbered))
    (tokens : ∀ token ∈ shown, property (.scanned token)) :
    ∀ row ∈ rows pending shown, property row := by
  intro row member
  cases row with
  | echoed numbered =>
    have listed : numbered ∈ (rows pending shown).filterMap Row.line? :=
      List.mem_filterMap.mpr ⟨_, member, rfl⟩
    rw [line?_rows pending ended] at listed
    exact lines numbered listed
  | scanned token =>
    have listed : token ∈ (rows pending shown).filterMap Row.token? :=
      List.mem_filterMap.mpr ⟨_, member, rfl⟩
    rw [token?_rows] at listed
    exact tokens token listed

/-! ### Reading rows -/

namespace Row

/-- The row that a line shows. -/
def read (line : List Char) : Row :=
  let numbered := line.dropWhile (· = ' ')
  let number := Nat.ofDigitChars 10 (numbered.takeWhile Char.isDigit) 0
  let rest := numbered.dropWhile Char.isDigit
  if rest.head? = some ':' then .echoed (number, String.ofList (rest.drop 2))
  else
    let kind := Token.Kind.ofLabel? (String.ofList (Text.word rest))
    .scanned ⟨kind.getD .endOfFile, String.ofList (Text.word (Text.pastWord rest)), number⟩

def readAll (text : String) : List Row :=
  (text.toList.splitOn '\n').dropLast.map read

/-- A row that its line shows: an echoed line is one line, and a lexeme is one word. -/
def Legible : Row → Prop
  | echoed numbered => '\n' ∉ numbered.2.toList
  | scanned token => ∀ char ∈ token.lexeme.toList, char ∉ Lexer.blanks

/-- The label and the lexeme of a token in columns, behind spaces. -/
def columns (lead : Nat) (token : Token) : List Char :=
  List.replicate lead ' ' ++ (token.kind.label.toList ++
    (List.replicate (Token.columnWidth - token.kind.label.length) ' ' ++ (token.lexeme.toList ++
      List.replicate (Token.columnWidth - token.lexeme.length) ' ')))

/-- A row without the newline that ends it. -/
def line : Row → List Char
  | echoed numbered =>
    List.replicate (4 - (toString numbered.1).length) ' ' ++
      ((toString numbered.1).toList ++ ':' :: ' ' :: numbered.2.toList)
  | scanned token =>
    (toString token.line).toList ++
      columns (Token.columnWidth - (toString token.line).length) token

theorem toList_text (row : Row) : row.text.toList = row.line ++ ['\n'] := by
  cases row with
  | echoed numbered => simp [text, line]
  | scanned token => simp [text, column, line, columns, Token.columnWidth]

/-- A label is a word that fits into its column, and it does not begin like the rest of an echoed
line. -/
theorem label_word (kind : Token.Kind) :
    kind.label.length < Token.columnWidth ∧ kind.label.toList ≠ [] ∧
      ∀ char ∈ kind.label.toList, ¬ char.isDigit ∧ char ≠ ':' ∧ char ∉ Lexer.blanks := by
  have plain : (kind.label.toList.all fun char =>
      ¬ char.isDigit ∧ char ≠ ':' ∧ char ∉ Lexer.blanks) = true := by cases kind <;> decide
  refine ⟨by cases kind <;> decide, by cases kind <;> decide, fun char member => ?_⟩
  exact of_decide_eq_true (List.all_eq_true.mp plain char member)

theorem ofLabel?_label (kind : Token.Kind) : Token.Kind.ofLabel? kind.label = some kind := by
  cases kind <;> decide

/-- The number of a row is read whole. -/
theorem read_number (lead number : Nat) (rest : List Char)
    (stops : ∀ next ∈ rest.head?, ¬ next.isDigit) :
    let numbered :=
      (List.replicate lead ' ' ++ ((toString number).toList ++ rest)).dropWhile (· = ' ')
    Nat.ofDigitChars 10 (numbered.takeWhile Char.isDigit) 0 = number ∧
      numbered.dropWhile Char.isDigit = rest := by
  intro numbered
  have begins : ((toString number).toList ++ rest).head? ≠ some ' ' := by
    have nonempty : (toString number).toList ≠ [] := by
      rw [Nat.toString_eq_repr, Nat.toList_repr]
      exact Nat.toDigits_ne_nil
    rw [List.head?_append_of_ne_nil _ nonempty]
    intro space
    exact absurd (Text.isDigit_of_mem_toString _ (List.mem_of_mem_head? space)) (by decide)
  have skipped : numbered = (toString number).toList ++ rest := (Text.span_blanks lead begins).2
  obtain ⟨digits, left⟩ := Text.span_append Text.isDigit_of_mem_toString stops
  rw [skipped, digits, left, Nat.toString_eq_repr, Nat.toList_repr]
  exact ⟨Nat.ofDigitChars_ten_toDigits, rfl⟩

theorem newline_not_mem_line {row : Row} (legible : row.Legible) : '\n' ∉ row.line := by
  have blank (width : Nat) : '\n' ∉ List.replicate width ' ' :=
    fun member => absurd (List.eq_of_mem_replicate member) (by decide)
  have digits (number : Nat) : '\n' ∉ (toString number).toList :=
    fun member => absurd (Text.isDigit_of_mem_toString _ member) (by decide)
  cases row with
  | echoed numbered =>
    have text : '\n' ∉ numbered.2.toList := legible
    simp only [line, List.mem_append, List.mem_cons, not_or]
    exact ⟨blank _, digits _, by decide, by decide, text⟩
  | scanned token =>
    have label : '\n' ∉ token.kind.label.toList :=
      fun member => ((label_word token.kind).2.2 _ member).2.2 (by decide)
    have lexeme : '\n' ∉ token.lexeme.toList := fun member => legible _ member (by decide)
    simp only [line, columns, List.mem_append, not_or]
    exact ⟨digits _, blank _, label, blank _, lexeme, blank _⟩

/-- Behind the number of a token there is neither a further digit nor a colon. -/
theorem head?_columns (lead : Nat) (token : Token) :
    ∀ next ∈ (columns lead token).head?, ¬ next.isDigit ∧ next ≠ ':' := by
  obtain ⟨-, nonempty, plain⟩ := label_word token.kind
  intro next first
  rw [columns, ← List.append_assoc, List.head?_append_of_ne_nil _ (by simp [nonempty])] at first
  obtain blank | label := List.mem_append.mp (List.mem_of_mem_head? first)
  · obtain rfl := List.eq_of_mem_replicate blank
    decide
  · exact ⟨(plain next label).1, (plain next label).2.1⟩

/-- The columns of a token are its label and its lexeme. -/
theorem read_columns (lead : Nat) {token : Token} (legible : (scanned token).Legible) :
    Text.word (columns lead token) = token.kind.label.toList ∧
      Text.word (Text.pastWord (columns lead token)) = token.lexeme.toList := by
  obtain ⟨fits, nonempty, plain⟩ := label_word token.kind
  have apart : ∀ next ∈ (List.replicate (Token.columnWidth - token.kind.label.length) ' ' ++
      (token.lexeme.toList ++ List.replicate (Token.columnWidth - token.lexeme.length) ' ')).head?,
      next = ' ' := by
    obtain ⟨width, wide⟩ := Nat.exists_eq_succ_of_ne_zero (Nat.sub_ne_zero_of_lt fits)
    rw [wide, List.replicate_succ]
    rintro next ⟨⟩
    rfl
  obtain ⟨label, past⟩ := Text.word_append lead nonempty
    (fun member => (plain _ member).2.2 (by decide)) apart
  refine ⟨label, ?_⟩
  rw [columns, past]
  by_cases empty : token.lexeme.toList = []
  · rw [empty, List.nil_append, ← List.replicate_add, Text.word_replicate]
  · have spaces : ∀ next ∈
        (List.replicate (Token.columnWidth - token.lexeme.length) ' ').head?, next = ' ' :=
      fun next first => List.eq_of_mem_replicate (List.mem_of_mem_head? first)
    exact (Text.word_append _ empty (fun member => legible _ member (by decide)) spaces).1

/-- A row is read as it was written. -/
theorem read_line {row : Row} (legible : row.Legible) : read row.line = row := by
  cases row with
  | echoed numbered =>
    obtain ⟨number, rest⟩ := read_number (4 - (toString numbered.1).length) numbered.1
      (':' :: ' ' :: numbered.2.toList) (by rintro next ⟨⟩; decide)
    simp only [read, line, number, rest, List.head?_cons, ↓reduceIte, List.drop_succ_cons,
      List.drop_zero, String.ofList_toList]
  | scanned token =>
    have behind := head?_columns (Token.columnWidth - (toString token.line).length) token
    obtain ⟨number, rest⟩ := read_number 0 token.line _ fun next first => (behind next first).1
    obtain ⟨label, lexeme⟩ :=
      read_columns (Token.columnWidth - (toString token.line).length) legible
    have noColon : (columns (Token.columnWidth - (toString token.line).length) token).head? ≠
        some ':' := fun colon => (behind _ colon).2 rfl
    rw [List.replicate_zero, List.nil_append] at number rest
    simp only [read, line, number, rest, noColon, ↓reduceIte, label, lexeme, String.ofList_toList,
      ofLabel?_label, Option.getD_some]

/-- Rows are read as they were written. -/
theorem readAll_join {rows : List Row} (legible : ∀ row ∈ rows, row.Legible) :
    readAll (join rows) = rows := by
  have written : (join rows).toList = (rows.map line).flatMap (· ++ ['\n']) := by
    simp [join, String.toList_join, List.flatMap_map, toList_text]
  have single : ∀ shown ∈ rows.map line, '\n' ∉ shown := by
    intro shown member
    obtain ⟨row, listed, rfl⟩ := List.mem_map.mp member
    exact newline_not_mem_line (legible row listed)
  rw [readAll, written, Text.dropLast_splitOn_join single, List.map_map]
  exact (List.map_congr_left fun row listed => read_line (legible row listed)).trans
    (List.map_id rows)

end Row

end Transcriber

end FrontEnd
