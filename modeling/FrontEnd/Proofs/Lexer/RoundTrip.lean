import FrontEnd.Proofs.Lexer.Longest
import FrontEnd.Proofs.Lexer.Skip
import FrontEnd.Proofs.Scanner.Drain
import Mathlib.Data.List.Chain

/-! # Scanning and weaving

A source is woven from pieces, and scanning gives the pieces back: `tokens_woven` says that every
source is a first gap, pieces whose lexemes are as long as they can be, and an ending, and that its
tokens are those of the pieces. `tokens_weave` says that pieces whose lexemes do not merge are
scanned as they were woven.
-/

namespace FrontEnd.Lexer

open Piece

/-! ### Endings -/

/-- What follows the last piece: nothing, or a comment that is never closed. -/
def IsEnding (ending : List Char) : Prop :=
  ending = [] ∨ ∃ inner, ending = '/' :: '*' :: inner ∧ CloseFree inner

/-- The tokens of an ending, on the last line. -/
def closing (ending : List Char) (line : Nat) : List Token :=
  if ending = [] then [⟨.endOfFile, "", line⟩]
  else [⟨.openComment, "/*", line⟩, ⟨.endOfFile, "", line⟩]

/-- The tokens of pieces behind a gap that begins on a line, and of their ending. -/
def Piece.read (ending : List Char) : List Char → Nat → List Piece → List Token
  | lead, line, [] => closing ending (crossed (lead ++ ending) [] line)
  | lead, line, piece :: rest =>
    let here := crossed lead (weave ending (piece :: rest)) line
    ⟨piece.kind, String.ofList piece.text, here⟩ :: read ending piece.gap here rest

variable {ending : List Char}

/-! ### Steps -/

theorem step_piece {piece : Piece} {rest : List Piece} {lead : List Char} (gap : Gap lead)
    (valid : piece.Valid) (longest : Longest ending (piece :: rest)) (line : Nat) :
    let here := crossed lead (weave ending (piece :: rest)) line
    step ⟨lead ++ weave ending (piece :: rest), line⟩ =
      (⟨piece.kind, String.ofList piece.text, here⟩, ⟨piece.gap ++ weave ending rest, here⟩) := by
  obtain ⟨first, more, text, taken⟩ := munch_of_lexeme valid.lexeme longest.1
  have gapless : Gapless (weave ending (piece :: rest)) := valid.lexeme.gapless longest.1
  have skipped := (skipGap_gap gap (weave ending (piece :: rest)) line).trans (skipGap_gapless gapless _)
  have shape : weave ending (piece :: rest) = first :: (more ++ (piece.gap ++ weave ending rest)) := by
    rw [weave, text, List.cons_append]
  simp only [step, skipped]
  generalize crossed lead (weave ending (piece :: rest)) line = here
  rw [shape]
  simp only [taken]

theorem step_end {lead : List Char} (gap : Gap lead) (line : Nat) :
    step ⟨lead, line⟩ = (⟨.endOfFile, "", crossed lead [] line⟩, ⟨[], crossed lead [] line⟩) := by
  have skipped := (skipGap_gap gap [] line).trans (skipGap_gapless gapless_nil _)
  rw [List.append_nil] at skipped
  simp only [step, skipped]

theorem step_unclosed {lead inner : List Char} (gap : Gap lead) (unclosed : CloseFree inner)
    (line : Nat) :
    let last := crossed (lead ++ '/' :: '*' :: inner) [] line
    step ⟨lead ++ '/' :: '*' :: inner, line⟩ = (⟨.openComment, "/*", last⟩, ⟨[], last⟩) := by
  have skipped : skipGap .gap (lead ++ '/' :: '*' :: inner) line =
      .unclosed (crossed (lead ++ '/' :: '*' :: inner) [] line) := by
    rw [skipGap_gap gap, skipGap, skipGap_unclosed unclosed, crossed_append, List.append_nil]
    rfl
  simp only [step, skipped]

/-! ### Runs -/

theorem drain_of_last {lexer next : Lexer} {token : Token} (stepped : lexer.step = (token, next))
    (last : token.kind = .endOfFile) (status : Status) (journal : List Journal.Entry) :
    (Session.drain ⟨lexer, status, journal⟩).1 = [token] := by
  have pulled : (Session.pull ⟨lexer, status, journal⟩).1 = token := congrArg Prod.fst stepped
  rw [Session.drain_last (by rw [pulled]; exact last), pulled]

theorem drain_of_more {lexer next : Lexer} {token : Token} (stepped : lexer.step = (token, next))
    (more : token.kind ≠ .endOfFile) (status : Status) (journal : List Journal.Entry) :
    ∃ status' journal', (Session.drain ⟨lexer, status, journal⟩).1 =
      token :: (Session.drain ⟨next, status', journal'⟩).1 := by
  have pulled : (Session.pull ⟨lexer, status, journal⟩).1 = token := congrArg Prod.fst stepped
  have left : (Session.pull ⟨lexer, status, journal⟩).2.scanner = next := congrArg Prod.snd stepped
  refine ⟨(Session.pull ⟨lexer, status, journal⟩).2.status,
    (Session.pull ⟨lexer, status, journal⟩).2.journal, ?_⟩
  rw [Session.drain_more (by rw [pulled]; exact more), pulled, ← left]

theorem drain_closing (isEnding : IsEnding ending) {lead : List Char} (gap : Gap lead)
    (line : Nat) (status : Status) (journal : List Journal.Entry) :
    (Session.drain ⟨(⟨lead ++ ending, line⟩ : Lexer), status, journal⟩).1 =
      closing ending (crossed (lead ++ ending) [] line) := by
  obtain rfl | ⟨inner, rfl, unclosed⟩ := isEnding
  · rw [List.append_nil]
    exact drain_of_last (step_end gap line) rfl status journal
  · obtain ⟨_, _, drained⟩ :=
      drain_of_more (step_unclosed gap unclosed line) (by simp) status journal
    rw [drained, drain_of_last (step_end .empty _) rfl]
    rfl

/-- Pieces whose lexemes are as long as they can be are scanned as they were woven. -/
theorem drain_weave (isEnding : IsEnding ending) {pieces : List Piece}
    (valid : ∀ piece ∈ pieces, piece.Valid) (longest : Longest ending pieces) {lead : List Char}
    (gap : Gap lead) (line : Nat) (status : Status) (journal : List Journal.Entry) :
    (Session.drain ⟨(⟨lead ++ weave ending pieces, line⟩ : Lexer), status, journal⟩).1 =
      Piece.read ending lead line pieces := by
  induction pieces generalizing lead line status journal with
  | nil => exact drain_closing isEnding gap line status journal
  | cons piece rest ih =>
    have first := valid piece (List.mem_cons_self ..)
    obtain ⟨_, _, drained⟩ := drain_of_more (step_piece gap first longest line)
      first.lexeme.kind_ne.1 status journal
    rw [drained, ih (fun other member => valid other (List.mem_cons_of_mem _ member)) longest.2 first.gap]
    rfl

/-- Every source is woven from a gap, pieces with lexemes as long as they can be, and an ending. -/
theorem exists_weave (text : List Char) :
    ∃ lead pieces ending, Gap lead ∧ (∀ piece ∈ pieces, piece.Valid) ∧ Longest ending pieces ∧
      IsEnding ending ∧ text = lead ++ weave ending pieces := by
  induction size : text.length using Nat.strong_induction_on generalizing text with
  | h size ih =>
    subst size
    obtain ⟨lead, rest, gap, rfl, gapless | unclosed⟩ := exists_gap text
    · cases rest with
      | nil => exact ⟨lead, [], [], gap, by simp, trivial, .inl rfl, rfl⟩
      | cons first after =>
        obtain ⟨lexeme, whole⟩ := lexeme_of_munch gapless
        have shorter := length_munch_rest_lt first after
        obtain ⟨next, pieces, ending, nextGap, valid, longest, isEnding, woven⟩ :=
          ih (munch first after).rest.length (by simp at shorter ⊢; omega) _ rfl
        refine ⟨lead, ⟨(munch first after).kind, (munch first after).lexeme, next⟩ :: pieces, ending,
          gap, List.forall_mem_cons.mpr ⟨⟨lexeme, nextGap⟩, valid⟩, ⟨?_, longest⟩, isEnding, ?_⟩
        · rw [← woven]
          exact whole
        · rw [weave, ← woven, munch_append]
    · exact ⟨lead, [], rest, gap, by simp, trivial, .inr unclosed, rfl⟩

/-! ### Kinds and lexemes -/

def entryOf (token : Token) : Token.Kind × String :=
  (token.kind, token.lexeme)

theorem map_entryOf_read (lead : List Char) (line : Nat) (pieces : List Piece) :
    ∃ last, (Piece.read ending lead line pieces).map entryOf =
      pieces.map entry ++ (closing ending last).map entryOf := by
  induction pieces generalizing lead line with
  | nil => exact ⟨_, rfl⟩
  | cons piece rest ih =>
    obtain ⟨last, same⟩ := ih piece.gap (crossed lead (weave ending (piece :: rest)) line)
    exact ⟨last, congrArg (entry piece :: ·) same⟩

theorem map_entryOf_tokens (isEnding : IsEnding ending) {lead : List Char} {pieces : List Piece}
    (gap : Gap lead) (valid : ∀ piece ∈ pieces, piece.Valid) (longest : Longest ending pieces)
    {source : String} (woven : source.toList = lead ++ weave ending pieces) (status : Status) :
    ∃ last, (tokens source status).1.map entryOf =
      pieces.map entry ++ (closing ending last).map entryOf := by
  rw [tokens, session, ofSource, woven, drain_weave isEnding valid longest gap]
  exact map_entryOf_read lead _ pieces

theorem flagged_tokens_iff (source : String) (status : Status) :
    (tokens source status).2.status.flagged = true ↔ status.flagged = true ∨
      ∃ shown ∈ (tokens source status).1.map entryOf, shown.1.isFault = true := by
  have drained : (tokens source status).2.status.flagged =
      (status.flagged || (tokens source status).1.any fun token => token.kind.isFault) :=
    flagged_drain (session source status)
  rw [drained, Bool.or_eq_true, List.any_eq_true]
  simp only [List.mem_map, exists_exists_and_eq_and]
  rfl

theorem isFault_iff {kind : Token.Kind} {text : List Char} (lexeme : Lexeme kind text) :
    kind.isFault = true ↔ kind = .stray := by
  have notOpen := lexeme.kind_ne.2
  constructor
  · intro fault
    unfold Token.Kind.isFault at fault
    split at fault
    · rfl
    · exact absurd rfl notOpen
    · cases fault
  · rintro rfl
    rfl

/-- Every source is a gap, then lexemes with gaps behind them, then nothing or a comment that is
never closed. The tokens are these lexemes in order, each of its own kind and as long as it can be,
then the open comment if there is one, and the end of the file once and last. -/
theorem tokens_woven (source : String) (status : Status) :
    ∃ lead pieces ending, Gap lead ∧ (∀ piece ∈ pieces, piece.Valid) ∧ Longest ending pieces ∧
      source.toList = lead ++ weave ending pieces ∧
      (∀ piece ∈ pieces, piece.kind ≠ .endOfFile ∧ piece.kind ≠ .openComment) ∧
      ((ending = [] ∧ (tokens source status).1.map entryOf =
          pieces.map entry ++ [(.endOfFile, "")]) ∨
        ∃ inner, ending = '/' :: '*' :: inner ∧ CloseFree inner ∧
          (tokens source status).1.map entryOf =
            pieces.map entry ++ [(.openComment, "/*"), (.endOfFile, "")]) := by
  obtain ⟨lead, pieces, ending, gap, valid, longest, isEnding, woven⟩ := exists_weave source.toList
  obtain ⟨_, entries⟩ := map_entryOf_tokens isEnding gap valid longest woven status
  refine ⟨lead, pieces, ending, gap, valid, longest, woven, fun piece member => ?_, ?_⟩
  · exact (valid piece member).lexeme.kind_ne
  · obtain rfl | ⟨inner, rfl, unclosed⟩ := isEnding
    · exact .inl ⟨rfl, entries⟩
    · exact .inr ⟨inner, rfl, unclosed, entries⟩

/-! ### Weaving without merging -/

/-- Lexemes that would be read differently if nothing stood between them. -/
def Merges (first second : List Char) : Prop :=
  ∃ next ∈ second.head?, Prolongs first next

instance (first second : List Char) : Decidable (Merges first second) :=
  Option.decidableExistsMem second.head?

theorem Lexeme.ne_nil {kind : Token.Kind} {text : List Char} (lexeme : Lexeme kind text) :
    text ≠ [] := by
  obtain ⟨first, rest, rfl, _⟩ := munch_of_lexeme lexeme fun _ (follows : _ ∈ [].head?) => nomatch follows
  simp

/-- A gap keeps lexemes apart: neither a blank nor the start of a comment prolongs any of them. -/
theorem Gap.not_prolongs {gap rest text : List Char} (isGap : Gap gap) (nonempty : gap ≠ []) :
    ∀ next ∈ (gap ++ rest).head?, ¬ Prolongs text next := by
  have harmless : ∀ next ∈ '/' :: blanks, ¬ next.isAlpha ∧ ¬ next.isDigit ∧ next ≠ '=' ∧ next ≠ '*' := by
    intro next member
    simp only [blanks, List.mem_cons, List.not_mem_nil, or_false] at member
    obtain rfl | rfl | rfl | rfl | rfl := member <;> decide
  intro next follows prolongs
  have member : next ∈ '/' :: blanks := by
    obtain ⟨char, _, rfl, isBlank⟩ | ⟨_, rfl⟩ := isGap.head_cases nonempty
    · cases follows
      exact List.mem_cons_of_mem _ isBlank
    · cases follows
      exact List.mem_cons_self ..
  obtain ⟨notLetter, notDigit, notEquals, notStar⟩ := harmless next member
  cases prolongs with
  | letter _ more => exact notLetter more
  | digit _ more => exact notDigit more
  | equals => exact notEquals rfl
  | comment => exact notStar rfl

theorem longest_of_apart {pieces : List Piece} (valid : ∀ piece ∈ pieces, piece.Valid)
    (apart : pieces.IsChain fun piece next => piece.gap = [] → ¬ Merges piece.text next.text) :
    Longest [] pieces := by
  induction pieces with
  | nil => trivial
  | cons piece rest ih =>
    refine ⟨?_, ih (fun other member => valid other (List.mem_cons_of_mem _ member)) apart.tail⟩
    by_cases adjacent : piece.gap = []
    · rw [adjacent, List.nil_append]
      cases rest with
      | nil => simp [weave]
      | cons second later =>
        intro next follows prolongs
        have nonempty := (valid second (by simp)).lexeme.ne_nil
        rw [weave, List.head?_append_of_ne_nil _ nonempty] at follows
        exact apart.rel adjacent ⟨next, follows, prolongs⟩
    · exact (valid piece (List.mem_cons_self ..)).gap.not_prolongs adjacent

/-- Lexemes that are woven with gaps between them, and with none only where they do not merge, are
scanned as they are; the error flag is up afterwards if it was up or a stray is among them. -/
theorem tokens_weave (lead : List Char) (pieces : List Piece) (status : Status) (gap : Gap lead)
    (valid : ∀ piece ∈ pieces, piece.Valid)
    (apart : pieces.IsChain fun piece next => piece.gap = [] → ¬ Merges piece.text next.text) :
    let scanned := tokens (String.ofList (lead ++ weave [] pieces)) status
    scanned.1.map entryOf = pieces.map entry ++ [(.endOfFile, "")] ∧
      (scanned.2.status.flagged = true ↔
        status.flagged = true ∨ ∃ piece ∈ pieces, piece.kind = .stray) := by
  intro scanned
  obtain ⟨_, entries⟩ := map_entryOf_tokens (.inl rfl) gap valid (longest_of_apart valid apart)
    String.toList_ofList status
  refine ⟨entries, ?_⟩
  rw [flagged_tokens_iff, entries]
  refine or_congr Iff.rfl ⟨?_, ?_⟩
  · rintro ⟨shown, member, fault⟩
    obtain member | member := List.mem_append.mp member
    · obtain ⟨piece, present, rfl⟩ := List.mem_map.mp member
      exact ⟨piece, present, (isFault_iff (valid piece present).lexeme).mp fault⟩
    · rw [List.mem_singleton.mp member] at fault
      cases fault
  · rintro ⟨piece, present, stray⟩
    refine ⟨entry piece, List.mem_append_left _ (List.mem_map_of_mem present), ?_⟩
    exact (isFault_iff (valid piece present).lexeme).mpr stray

/-- A slash before a comment that holds a slash of its own, and an exclamation mark after a star. -/
theorem tokens_weave_slash_before_comment :
    let pieces : List Piece :=
      [⟨.whileWord, "while".toList, []⟩, ⟨.divide, ['/'], ['/', '*', '/', '*', '/']⟩,
        ⟨.times, ['*'], []⟩, ⟨.stray, ['!'], [' ']⟩, ⟨.equal, "==".toList, []⟩, ⟨.number, ['1'], []⟩]
    let scanned := tokens (String.ofList (['\n'] ++ weave [] pieces)) ⟨0, false⟩
    scanned.1.map entryOf = pieces.map entry ++ [(.endOfFile, "")] ∧
      (scanned.2.status.flagged = true ↔
        false = true ∨ ∃ piece ∈ pieces, piece.kind = .stray) := by
  intro pieces
  have comment : Gap ['/', '*', '/', '*', '/'] :=
    @Gap.comment ['/'] [] (closeFree_cons.mpr ⟨by decide, closeFree_cons.mpr ⟨by decide, closeFree_nil⟩⟩) .empty
  have valid : ∀ piece ∈ pieces, piece.Valid := by
    simp only [pieces, List.forall_mem_cons, List.not_mem_nil, false_implies, implies_true, and_true]
    refine ⟨⟨.regular (.fixed rfl), .empty⟩, ⟨.regular (regular_of_glyphKind? rfl), comment⟩,
      ⟨.regular (regular_of_glyphKind? rfl), .empty⟩, ⟨.exclamation, .blank (by decide) .empty⟩,
      ⟨.regular (.fixed rfl), .empty⟩,
      ⟨.regular (.number (by decide) (List.all_eq_true.mp (by decide))), .empty⟩⟩
  exact tokens_weave ['\n'] pieces ⟨0, false⟩ (.blank (by decide) .empty) valid (by decide)

end FrontEnd.Lexer
