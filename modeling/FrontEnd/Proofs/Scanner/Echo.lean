import FrontEnd.Proofs.Scanner.Trace

/-! # Echoed lines

The lines of a text are echoed in their order, each when it becomes due. After some tokens these are
the lines up to the largest line of a token, or all of them once the end of the file is among the
tokens, and each further token brings the lines that it lets out and the tokens before it have not.
The tokens of the text itself are on lines that never decrease, so every line stands in front of the
tokens that are on it, and behind those that are on earlier lines.
-/

namespace FrontEnd

/-! ### Numbered lines -/

namespace Text

/-- The numbers of lines count up, behind those that were skipped. -/
def CountsUp (skipped : Nat) (lines : List (Nat × String)) : Prop :=
  ∀ index (bound : index < lines.length), lines[index].1 = skipped + index + 1

theorem CountsUp.drop {skipped : Nat} {lines : List (Nat × String)}
    (countsUp : CountsUp skipped lines) (count : Nat) :
    CountsUp (skipped + count) (lines.drop count) := by
  intro index bound
  rw [List.getElem_drop, countsUp]
  omega

theorem countsUp_numberedLines (text : List Char) : CountsUp 0 (numberedLines text) := by
  intro index bound
  simp [numberedLines]

theorem length_numberedLines (text : List Char) :
    (numberedLines text).length = (lines text).length := by
  simp [numberedLines]

theorem CountsUp.numbers_take {lines : List (Nat × String)} (countsUp : CountsUp 0 lines)
    {count : Nat} (within : count ≤ lines.length) :
    (lines.take count).map Prod.fst = List.range' 1 count := by
  apply List.ext_getElem
  · simp [within]
  · intro index _ bound
    have inside : index < lines.length := by
      rw [List.length_range'] at bound
      omega
    simp [countsUp index inside, Nat.add_comm]

end Text

namespace Transcriber

/-! ### The lines that tokens let out -/

/-- How many of the lines of a text tokens let out: all of them once the end of the file is among the
tokens, and before that as many as the largest line of a token says. -/
def released (total : Nat) (shown : List Token) : Nat :=
  if ∃ token ∈ shown, token.kind = .endOfFile then total
  else min total ((shown.map Token.line).foldl max 0)

theorem released_nil (total : Nat) : released total [] = 0 := by
  simp [released]

theorem released_le (total : Nat) (shown : List Token) : released total shown ≤ total := by
  unfold released
  split <;> omega

/-- One token more lets out the lines up to its own, or all of them. -/
theorem released_concat (total : Nat) (shown : List Token) (token : Token) :
    released total (shown ++ [token]) =
      max (released total shown)
        (if token.kind = .endOfFile then total else min total token.line) := by
  have ended : (∃ other ∈ shown ++ [token], other.kind = .endOfFile) ↔
      (∃ other ∈ shown, other.kind = .endOfFile) ∨ token.kind = .endOfFile := by
    simp [or_and_right, exists_or]
  have largest : ((shown ++ [token]).map Token.line).foldl max 0 =
      max ((shown.map Token.line).foldl max 0) token.line := by
    rw [List.map_append, List.foldl_append]
    rfl
  unfold released
  simp only [ended, largest]
  split_ifs <;> grind

/-- Tokens let out no more lines than a bound on their own allows, if the end of the file lets out
none beyond it either. -/
theorem released_le_of_forall {total bound : Nat} {shown : List Token}
    (lines : ∀ token ∈ shown, token.line ≤ bound)
    (ends : ∀ token ∈ shown, token.kind = .endOfFile → total ≤ bound) :
    released total shown ≤ bound := by
  induction shown using List.reverseRecOn with
  | nil => simp [released]
  | append_singleton shown token ih =>
    have earlier := ih (fun other member => lines other (List.mem_append_left _ member))
      fun other member => ends other (List.mem_append_left _ member)
    have here := lines token (List.mem_append_right _ (List.mem_singleton_self _))
    have last := ends token (List.mem_append_right _ (List.mem_singleton_self _))
    rw [released_concat]
    split_ifs with isLast
    · exact max_le earlier (last isLast)
    · exact max_le earlier ((min_le_right ..).trans here)

theorem isDue_iff {token : Token} {line : Nat × String} :
    isDue token line = true ↔ token.kind = .endOfFile ∨ line.1 ≤ token.line := by
  simp [isDue]

section

variable {lines : List (Nat × String)}

/-- Where the numbers of lines count up, the lines that a token lets out are the first ones. -/
theorem span_isDue {skipped : Nat} (countsUp : Text.CountsUp skipped lines) (token : Token) :
    let due := if token.kind = .endOfFile then lines.length else token.line - skipped
    lines.takeWhile (isDue token) = lines.take due ∧
      lines.dropWhile (isDue token) = lines.drop due := by
  intro due
  induction lines generalizing skipped with
  | nil => simp
  | cons line rest ih =>
    have number : line.1 = skipped + 1 := countsUp 0 (Nat.zero_lt_succ _)
    obtain ⟨taken, dropped⟩ := ih (countsUp.drop 1)
    by_cases isOut : isDue token line = true
    · have first := isDue_iff.mp isOut
      have more : due = (if token.kind = .endOfFile then rest.length
          else token.line - (skipped + 1)) + 1 := by
        grind
      rw [List.takeWhile_cons_of_pos isOut, List.dropWhile_cons_of_pos isOut, taken, dropped, more]
      exact ⟨rfl, rfl⟩
    · have first := mt isDue_iff.mpr isOut
      have none : due = 0 := by
        grind
      rw [List.takeWhile_cons_of_neg isOut, List.dropWhile_cons_of_neg isOut, none]
      exact ⟨rfl, rfl⟩

variable (countsUp : Text.CountsUp 0 lines)

include countsUp

/-- A token brings out the lines that it lets out and the tokens before it have not. -/
theorem span_released (shown : List Token) (token : Token) :
    let before := released lines.length shown
    let after := released lines.length (shown ++ [token])
    (lines.drop before).takeWhile (isDue token) = (lines.take after).drop before ∧
      (lines.drop before).dropWhile (isDue token) = lines.drop after := by
  intro before after
  obtain ⟨taken, dropped⟩ := span_isDue (countsUp.drop before) token
  have within : before ≤ lines.length := released_le ..
  have grown : after = _ := released_concat lines.length shown token
  rw [taken, dropped, List.drop_take, List.drop_drop, List.take_eq_take_iff, List.drop_eq_drop_iff,
    List.length_drop]
  grind

theorem left_eq_drop (shown : List Token) :
    left lines shown = lines.drop (released lines.length shown) := by
  induction shown using List.reverseRecOn with
  | nil => simp [left, released_nil]
  | append_singleton shown token ih =>
    calc left lines (shown ++ [token])
        = (left lines shown).dropWhile (isDue token) := List.foldl_append
      _ = lines.drop (released lines.length (shown ++ [token])) := by
          rw [ih]
          exact (span_released countsUp shown token).2

/-- The lines that tokens bring out are those that they let out. -/
theorem line?_rows_eq_take (shown : List Token) :
    (rows lines shown).filterMap Row.line? = lines.take (released lines.length shown) := by
  have all := line?_rows_append_left lines shown
  rw [left_eq_drop countsUp] at all
  exact List.append_cancel_right (all.trans (List.take_append_drop _ lines).symm)

end

/-! ### Token by token -/

/-- The rows that a token brings into a listing behind other tokens: the lines that it lets out and
they have not, and its own row if that is wanted. -/
def batch (wanted : Bool) (lines : List (Nat × String)) (earlier : List Token) (token : Token) :
    List Row :=
  let before := released lines.length earlier
  let after := released lines.length (earlier ++ [token])
  ((lines.take after).drop before).map .echoed ++ if wanted then [.scanned token] else []

/-- The rows that tokens bring into a listing, each its own. -/
def batches (wanted : Bool) (lines : List (Nat × String)) (shown : List Token) : List (List Row) :=
  shown.mapIdx fun index token => batch wanted lines (shown.take index) token

theorem batches_concat (wanted : Bool) (lines : List (Nat × String)) (shown : List Token)
    (token : Token) :
    batches wanted lines (shown ++ [token]) =
      batches wanted lines shown ++ [batch wanted lines shown token] := by
  have earlier : (shown.mapIdx fun index other =>
      batch wanted lines ((shown ++ [token]).take index) other) = batches wanted lines shown := by
    apply List.mapIdx_eq_mapIdx_iff.mpr
    intro index bound
    rw [List.take_append_of_le_length bound.le]
  rw [batches, List.mapIdx_append, earlier]
  simp

section

variable {lines : List (Nat × String)} (countsUp : Text.CountsUp 0 lines)

include countsUp

/-- The rows of tokens that are shown are what each of them brings. -/
theorem flatten_batches (wanted : Bool) (shown : List Token) :
    (batches wanted lines shown).flatten = (rows lines shown).filter (Row.isShown wanted) := by
  induction shown using List.reverseRecOn with
  | nil => rfl
  | append_singleton shown token ih =>
    have own : [Row.scanned token].filter (Row.isShown wanted) =
        if wanted then [.scanned token] else [] := by
      cases wanted <;> rfl
    have brought : (rows (left lines shown) [token]).filter (Row.isShown wanted) =
        batch wanted lines shown token := by
      rw [left_eq_drop countsUp, rows, rows, (span_released countsUp shown token).1,
        List.filter_append, filter_echoed, own]
      rfl
    rw [batches_concat, List.flatten_append, List.flatten_singleton, rows_append,
      List.filter_append, ih, brought]

/-- Whether or not their own rows are wanted, tokens bring the lines that they let out. -/
theorem line?_batches (wanted : Bool) (shown : List Token) :
    (batches wanted lines shown).flatten.filterMap Row.line? =
      lines.take (released lines.length shown) := by
  rw [flatten_batches countsUp, List.filterMap_filter, ← line?_rows_eq_take countsUp]
  congr 1
  funext row
  cases row with
  | echoed line => rfl
  | scanned token => simp [Row.line?]

/-- The first lines are those with the smallest numbers. -/
theorem mem_take_iff (count : Nat) {line : Nat × String} (member : line ∈ lines) :
    line ∈ lines.take count ↔ line.1 ≤ count := by
  obtain ⟨index, bound, rfl⟩ := List.getElem_of_mem member
  rw [countsUp, List.mem_take_iff_getElem]
  constructor
  · rintro ⟨other, within, same⟩
    have number := congrArg Prod.fst same
    rw [countsUp, countsUp] at number
    omega
  · intro within
    exact ⟨index, by omega, rfl⟩

end

/-- The rows in front of that of a token are those of the tokens before it and the lines that it lets
out. -/
theorem exists_rows_eq {pending : List (Nat × String)} {shown : List Token} {token : Token}
    {before after : List Row} (split : rows pending shown = before ++ .scanned token :: after) :
    ∃ earlier later, shown = earlier ++ token :: later ∧
      rows pending (earlier ++ [token]) = before ++ [.scanned token] := by
  induction shown generalizing pending before with
  | nil => simp [rows] at split
  | cons first rest ih =>
    obtain ⟨front, rfl, behind⟩ | ⟨front, due, behind⟩ := List.append_eq_append_iff.mp split
    · cases front with
      | nil =>
        obtain ⟨⟨rfl⟩, rfl⟩ := List.cons_eq_cons.mp behind
        exact ⟨[], rest, rfl, by simp [rows]⟩
      | cons row front =>
        obtain ⟨rfl, rest_eq⟩ := List.cons_eq_cons.mp behind
        obtain ⟨earlier, later, rfl, front_eq⟩ := ih rest_eq
        exact ⟨first :: earlier, later, rfl, by simp [rows, front_eq]⟩
    · cases front with
      | nil =>
        obtain ⟨⟨rfl⟩, rfl⟩ := List.cons_eq_cons.mp behind
        exact ⟨[], rest, rfl, by simp [rows, due]⟩
      | cons row front =>
        -- The rows of lines do not show tokens.
        obtain ⟨rfl, -⟩ := List.cons_eq_cons.mp behind
        have listed : Row.scanned token ∈ (pending.takeWhile (isDue first)).map Row.echoed := by
          simp [due]
        simp at listed

/-! ### Just in time -/

/-- Tokens on lines that never decrease let out the lines up to that of the last one, if none is beyond
the last line and the end of the file is on that one. -/
theorem released_of_sorted {total : Nat} {earlier : List Token} {token : Token}
    (sorted : (earlier ++ [token]).Pairwise fun earlier later => earlier.line ≤ later.line)
    (placed : ∀ other ∈ earlier ++ [token],
      other.line ≤ total ∧ (other.kind = .endOfFile → other.line = total)) :
    released total (earlier ++ [token]) = token.line := by
  have below : ∀ other ∈ earlier, other.line ≤ token.line := fun other member =>
    (List.pairwise_append.mp sorted).2.2 other member token (List.mem_singleton_self _)
  have bound : released total earlier ≤ token.line := by
    refine released_le_of_forall below fun other member isLast => ?_
    rw [← (placed other (List.mem_append_left _ member)).2 isLast]
    exact below other member
  obtain ⟨within, atEnd⟩ := placed token (List.mem_append_right _ (List.mem_singleton_self _))
  rw [released_concat]
  split_ifs with isLast
  · rw [atEnd isLast] at bound ⊢
    exact max_eq_right bound
  · rw [min_eq_right within, max_eq_right bound]

/-- On lines that never decrease, a token comes behind the lines up to its own, and in front of the
lines that are beyond. -/
theorem echoed_mem_iff {lines : List (Nat × String)} {shown : List Token} {token : Token}
    {before after : List Row}
    (countsUp : Text.CountsUp 0 lines)
    (sorted : shown.Pairwise fun earlier later => earlier.line ≤ later.line)
    (placed : ∀ other ∈ shown,
      other.line ≤ lines.length ∧ (other.kind = .endOfFile → other.line = lines.length))
    (split : rows lines shown = before ++ .scanned token :: after) :
    ∀ line ∈ lines, .echoed line ∈ before ↔ line.1 ≤ token.line := by
  obtain ⟨earlier, later, rfl, front⟩ := exists_rows_eq split
  rw [List.append_cons] at sorted placed
  have echoed : before.filterMap Row.line? = lines.take token.line := by
    calc before.filterMap Row.line?
        = (rows lines (earlier ++ [token])).filterMap Row.line? := by
          rw [front, List.filterMap_append]
          exact (List.append_nil _).symm
      _ = lines.take (released lines.length (earlier ++ [token])) :=
          line?_rows_eq_take countsUp _
      _ = lines.take token.line := by
          rw [released_of_sorted (List.pairwise_append.mp sorted).1
            fun other member => placed other (List.mem_append_left _ member)]
  intro line member
  rw [← mem_take_iff countsUp token.line member, ← echoed, List.mem_filterMap]
  constructor
  · intro shown
    exact ⟨_, shown, rfl⟩
  · rintro ⟨row, shown, isLine⟩
    cases row with
    | echoed other => exact Option.some.inj isLine ▸ shown
    | scanned other => cases isLine

end Transcriber

namespace Session

open Transcriber

variable {σ : Type} [Scanner σ]

/-- A transcript that no write has stopped holds the trace of the tokens behind it. -/
theorem content_opened (inner : σ) (status : Status) (journal : List Journal.Entry) (text : String)
    (wanted : Bool) (limit : Option Nat) (count : Nat) :
    let transcribed :=
      (pulls count ⟨Transcriber.opened inner (some text) wanted limit, status, journal⟩).2.scanner
    transcribed.outcome = .ok () → transcribed.listing.content =
      (trace wanted (Text.numberedLines text.toList)
        ((pulls count ⟨inner, status, journal⟩).1.map Prod.fst)).toUTF8 := by
  intro transcribed well
  let free : Session (Transcriber σ) :=
    ⟨Transcriber.opened inner (some text) wanted none, status, journal⟩
  have fronts : free.Fronts ⟨inner, status, journal⟩ :=
    fronts_opened inner status journal (some text) wanted none
  have same : (free.pulls count).1 = _ := (Fronts.simulation.pulls count fronts).1
  have freely : free.scanner.Free := ⟨rfl, rfl⟩
  have written := (listing_pulls count freely).2
  have whole : (free.pulls count).2.scanner.listing.content = (trace wanted
      (Text.numberedLines text.toList)
        ((pulls count ⟨inner, status, journal⟩).1.map Prod.fst)).toUTF8 := by
    rw [written, same]
    simp [free, Transcriber.opened, Transcriber.silent, Transcriber.writingTokens,
      Transcriber.echoing, Listing.write, Listing.empty, Listing.cut]
  cases limit with
  | none => exact whole
  | some limit =>
    have opened := shadows_opened inner status journal (some text) wanted limit
    have shadows := ((Shadows.simulation rfl limit).pulls count opened).2
    have went : transcribed.outcome = _ := shadows.outcome
    rw [well] at went
    split at went
    · next within =>
      have listing : transcribed.listing = _ := shadows.listing
      rw [listing, Listing.capped_of_within within]
      exact whole
    · cases went

/-- What is written while tokens are taken is what each of them brings, row by row as `Row.text` spells
them out: the lines of the text that it lets out and the tokens before it have not, and its own row if
that is wanted. So after any number of tokens the lines up to the largest line of a token are echoed,
or all of them once the end of the file was taken, each once and in order. The tokens of a text itself,
taken through the end of the file, bring out all of its lines, and each of them comes behind exactly
the lines up to its own. -/
theorem echoes_in_order (inner : σ) (status : Status) (journal : List Journal.Entry)
    (text : String) (wanted : Bool) (limit : Option Nat) (count extra : Nat) :
    let lines := Text.numberedLines text.toList
    let shown := (pulls count ⟨inner, status, journal⟩).1.map Prod.fst
    let transcribed :=
      (pulls count ⟨Transcriber.opened inner (some text) wanted limit, status, journal⟩).2.scanner
    let rows := (batches wanted lines shown).flatten
    Text.HasLines text.toList (lines.map fun numbered => numbered.2.toList) ∧
    (transcribed.outcome = .ok () → transcribed.listing.content = (Row.join rows).toUTF8) ∧
    rows.filterMap Row.line? = lines.take (released lines.length shown) ∧
    (rows.filterMap Row.line?).map Prod.fst = List.range' 1 (released lines.length shown) ∧
    let count := (tokens text status).1.length + extra
    let lexer := Lexer.ofSource text.toList
    let taken := (pulls count ⟨lexer, status, journal⟩).1.map Prod.fst
    let transcribed :=
      (pulls count ⟨Transcriber.opened lexer (some text) wanted limit, status, journal⟩).2.scanner
    let rows := (batches wanted lines taken).flatten
    (transcribed.outcome = .ok () → transcribed.listing.content = (Row.join rows).toUTF8) ∧
    rows.filterMap Row.line? = lines ∧
    ∀ before token after, rows = before ++ .scanned token :: after →
      ∀ numbered ∈ lines, .echoed numbered ∈ before ↔ numbered.1 ≤ token.line := by
  intro lines shown transcribed rows
  have countsUp : Text.CountsUp 0 lines := Text.countsUp_numberedLines text.toList
  have rows_eq (shown : List Token) :
      Row.join (batches wanted lines shown).flatten = trace wanted lines shown := by
    rw [flatten_batches countsUp, trace]
  have echoed (shown : List Token) := line?_batches countsUp wanted shown
  refine ⟨?_, ?_, echoed shown, ?_, ?_⟩
  · rw [Text.map_numberedLines]
    exact Text.hasLines_lines text.toList
  · intro well
    rw [rows_eq]
    exact content_opened inner status journal text wanted limit count well
  · rw [echoed]
    exact countsUp.numbers_take (released_le ..)
  intro count lexer taken transcribed rows
  have taken_eq : taken = lexer.ahead count := Lexer.tokens_pulls count ⟨lexer, status, journal⟩
  have ended : ∃ token ∈ taken, token.kind = .endOfFile :=
    taken_eq ▸ Lexer.ended_ahead (Nat.le_add_right _ extra)
  have all : released lines.length taken = lines.length := if_pos ended
  refine ⟨?_, ?_, ?_⟩
  · intro well
    rw [rows_eq]
    exact content_opened lexer status journal text wanted limit count well
  · rw [echoed, all, List.take_length]
  · intro before token after split
    obtain ⟨sorted, placed⟩ := Lexer.lines_ahead text count
    rw [← Text.length_numberedLines] at placed
    have shown : (Transcriber.rows lines taken).filter (Row.isShown wanted) =
        before ++ .scanned token :: after := by
      rw [← flatten_batches countsUp]
      exact split
    have isWanted : wanted = true :=
      (List.mem_filter.mp (shown ▸ List.mem_append_right _ (List.mem_cons_self ..))).2
    rw [isWanted, filter_isShown_true, taken_eq] at shown
    exact echoed_mem_iff countsUp sorted placed shown

/-- A line without tokens is echoed with the next one that has some. -/
theorem echoes_in_order_blankLine :
    let text := "x\n\ny\n"
    let transcribed := (pulls 3
      ⟨Transcriber.opened (Lexer.ofSource text.toList) (some text) true (some 1000), {}, []⟩).2.scanner
    let rows := (batches true (Text.numberedLines text.toList)
      ((pulls 3 ⟨Lexer.ofSource text.toList, {}, []⟩).1.map Prod.fst)).flatten
    transcribed.outcome = .ok () ∧
    rows = [.echoed (1, "x"), .scanned ⟨.identifier, "x", 1⟩,
      .echoed (2, ""), .echoed (3, "y"), .scanned ⟨.identifier, "y", 3⟩,
      .scanned ⟨.endOfFile, "", 3⟩] ∧
    transcribed.listing.content = (Row.join rows).toUTF8 ∧
    Row.join rows =
      "   1: x\n" ++
      "1                   ID                  x                   \n" ++
      "   2: \n" ++
      "   3: y\n" ++
      "3                   ID                  y                   \n" ++
      "3                   EOF                                     \n" := by
  have written (text : String) :=
    (echoes_in_order (Lexer.ofSource text.toList) {} [] text true (some 1000) 3 0).2.1
  exact ⟨by decide +kernel, by decide +kernel, written _ (by decide +kernel), by decide +kernel⟩

end Session

end FrontEnd
