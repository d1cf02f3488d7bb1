import FrontEnd.Lexer.Munch
import FrontEnd.Proofs.Lexer.Language
import FrontEnd.Proofs.Text.Reading

/-! # Lexemes are taken whole

Where no gap begins, what is taken is a lexeme of its kind that the text behind it does not
prolong. Conversely a lexeme that is not prolonged by what follows is taken as it stands, so at most
one kind and one length are possible.
-/

namespace FrontEnd.Lexer

/-! ### Classes of characters -/

theorem not_isDigit_of_isAlpha {char : Char} (letter : char.isAlpha) : ¬ char.isDigit := by
  intro digit
  have below : char.toNat ≤ 57 := (Char.isDigit_iff_toNat.mp digit).2
  obtain upper | lower : char.isUpper ∨ char.isLower := Bool.or_eq_true_iff.mp letter
  · have above : 65 ≤ char.toNat := UInt32.le_iff_toNat_le.mp (of_decide_eq_true upper).1
    omega
  · have above : 97 ≤ char.toNat :=
      UInt32.le_iff_toNat_le.mp (of_decide_eq_true (Bool.and_eq_true_iff.mp lower).1)
    omega

private theorem head?_dropWhile_not (charClass : Char → Bool) (text : List Char) :
    ∀ next ∈ (text.dropWhile charClass).head?, ¬ charClass next := by
  intro next first
  have failed := List.head?_dropWhile_not charClass text
  rw [Option.mem_def.mp first] at failed
  simpa using failed

/-! ### What each class of lexeme is taken as -/

theorem munch_of_isDigit {first : Char} (digit : first.isDigit) (after : List Char) :
    munch first after =
      ⟨.number, first :: after.takeWhile Char.isDigit, after.dropWhile Char.isDigit⟩ := by
  unfold munch
  rw [if_pos digit]

theorem munch_of_isAlpha {first : Char} (letter : first.isAlpha) (after : List Char) :
    munch first after =
      ⟨wordKind (first :: after.takeWhile Char.isAlpha), first :: after.takeWhile Char.isAlpha,
        after.dropWhile Char.isAlpha⟩ := by
  unfold munch
  rw [if_neg (not_isDigit_of_isAlpha letter), if_pos letter]

theorem munch_number {first : Char} {digits after : List Char} (digit : first.isDigit)
    (decimal : ∀ char ∈ digits, char.isDigit) (stops : ∀ next ∈ after.head?, ¬ next.isDigit) :
    munch first (digits ++ after) = ⟨.number, first :: digits, after⟩ := by
  obtain ⟨taken, left⟩ := Text.span_append decimal stops
  rw [munch_of_isDigit digit, taken, left]

theorem munch_word {first : Char} {letters after : List Char} (letter : first.isAlpha)
    (alphabetic : ∀ char ∈ letters, char.isAlpha) (stops : ∀ next ∈ after.head?, ¬ next.isAlpha) :
    munch first (letters ++ after) = ⟨wordKind (first :: letters), first :: letters, after⟩ := by
  obtain ⟨taken, left⟩ := Text.span_append alphabetic stops
  rw [munch_of_isAlpha letter, taken, left]

theorem munch_pair {first : Char} {kind : Token.Kind} (notDigit : ¬ first.isDigit)
    (notLetter : ¬ first.isAlpha) (pair : pairKind? first = some kind) (after : List Char) :
    munch first ('=' :: after) = ⟨kind, [first, '='], after⟩ := by
  unfold munch
  simp only [if_neg notDigit, if_neg notLetter, pair]

theorem munch_single {first : Char} {after : List Char} (notDigit : ¬ first.isDigit)
    (notLetter : ¬ first.isAlpha) (single : pairKind? first = none ∨ after.head? ≠ some '=') :
    munch first after = ⟨(glyphKind? first).getD .stray, [first], after⟩ := by
  unfold munch
  rw [if_neg notDigit, if_neg notLetter]
  split
  · next pair =>
    obtain none | other := single
    · rw [none] at pair
      cases pair
    · exact absurd rfl other
  · rfl

/-- What the longest lexeme at the start of a text can be. -/
inductive Munched (first : Char) (after : List Char) : Munch → Prop
  | number (digit : first.isDigit) :
      Munched first after
        ⟨.number, first :: after.takeWhile Char.isDigit, after.dropWhile Char.isDigit⟩
  | word (letter : first.isAlpha) :
      Munched first after
        ⟨wordKind (first :: after.takeWhile Char.isAlpha), first :: after.takeWhile Char.isAlpha,
          after.dropWhile Char.isAlpha⟩
  | pair {kind : Token.Kind} {later : List Char} (notDigit : ¬ first.isDigit)
      (notLetter : ¬ first.isAlpha) (pair : pairKind? first = some kind) (follows : after = '=' :: later) :
      Munched first after ⟨kind, [first, '='], later⟩
  | single (notDigit : ¬ first.isDigit) (notLetter : ¬ first.isAlpha)
      (single : pairKind? first = none ∨ after.head? ≠ some '=') :
      Munched first after ⟨(glyphKind? first).getD .stray, [first], after⟩

theorem munched (first : Char) (after : List Char) : Munched first after (munch first after) := by
  by_cases digit : first.isDigit
  · rw [munch_of_isDigit digit]
    exact .number digit
  by_cases letter : first.isAlpha
  · rw [munch_of_isAlpha letter]
    exact .word letter
  by_cases single : pairKind? first = none ∨ after.head? ≠ some '='
  · rw [munch_single digit letter single]
    exact .single digit letter single
  · obtain ⟨some, equals⟩ := not_or.mp single
    obtain ⟨kind, pair⟩ := Option.ne_none_iff_exists'.mp some
    obtain ⟨later, rfl⟩ := List.head?_eq_some_iff.mp (not_not.mp equals)
    rw [munch_pair digit letter pair]
    exact .pair digit letter pair rfl

/-! ### Fixed texts -/

/-- A fixed text is a word, a character with an equals sign, or a single character. -/
theorem fixed_cases {kind : Token.Kind} {text : String} (spelled : fixedText? kind = some text) :
    (∃ first letters, text.toList = first :: letters ∧ (∀ char ∈ first :: letters, char.isAlpha) ∧
      wordKind (first :: letters) = kind) ∨
    (∃ first, text.toList = [first, '='] ∧ ¬ first.isDigit ∧ ¬ first.isAlpha ∧
      pairKind? first = some kind) ∨
    ∃ first, text.toList = [first] ∧ ¬ first.isDigit ∧ ¬ first.isAlpha ∧
      glyphKind? first = some kind ∧ (pairKind? first = none ∨ first ∈ ['=', '<', '>', '!']) := by
  cases kind
  case endOfFile | stray | openComment | identifier | number => cases spelled
  case ifWord | elseWord | returnWord | whileWord | forWord | intWord | voidWord | charWord =>
    cases spelled
    exact .inl ⟨_, _, rfl, List.all_eq_true.mp (by decide), by decide⟩
  case equal | notEqual | lessOrEqual | greaterOrEqual =>
    cases spelled
    exact .inr (.inl ⟨_, rfl, by decide, by decide, rfl⟩)
  all_goals
    cases spelled
    exact .inr (.inr ⟨_, rfl, by decide, by decide, rfl, by decide⟩)

theorem regular_of_glyphKind? {char : Char} {kind : Token.Kind} (glyph : glyphKind? char = some kind) :
    Regular kind [char] := by
  have spelled : fixedText? kind = some (String.ofList [char]) := by
    unfold glyphKind? at glyph
    split at glyph <;> cases glyph <;> rfl
  simpa using Regular.fixed spelled

theorem regular_of_pairKind? {char : Char} {kind : Token.Kind} (pair : pairKind? char = some kind) :
    Regular kind [char, '='] := by
  have spelled : fixedText? kind = some (String.ofList [char, '=']) := by
    unfold pairKind? at pair
    split at pair <;> cases pair <;> rfl
  simpa using Regular.fixed spelled

/-- A run of letters is a reserved word or an identifier. -/
theorem regular_wordKind {word : List Char} (nonempty : word ≠ []) (letters : ∀ char ∈ word, char.isAlpha) :
    Regular (wordKind word) word := by
  unfold wordKind
  cases found : Token.Kind.ofSpelling? (String.ofList word) with
  | none =>
    refine .identifier nonempty letters fun kind spelled => ?_
    have none := List.find?_eq_none.mp found kind kind.mem_all
    simp [spelled] at none
  | some kind =>
    have spelled : kind.spelling? = some (String.ofList word) := by
      simpa using List.find?_some found
    have fixed : fixedText? kind = some (String.ofList word) := by
      simp [fixedText?, spelled]
    simpa using Regular.fixed fixed

theorem wordKind_of_unreserved {word : List Char}
    (unreserved : ∀ kind : Token.Kind, kind.spelling? ≠ some (String.ofList word)) :
    wordKind word = .identifier := by
  have none : Token.Kind.ofSpelling? (String.ofList word) = none :=
    List.find?_eq_none.mpr fun kind _ => by simpa using unreserved kind
  rw [wordKind, none, Option.getD_none]

theorem prolongs_cases {first : Char} {more : List Char} {next : Char}
    (prolongs : Prolongs (first :: more) next) :
    (first.isAlpha ∧ next.isAlpha) ∨ (first.isDigit ∧ next.isDigit) ∨
      (more = [] ∧ first ∈ ['=', '<', '>', '!'] ∧ next = '=') ∨
      (more = [] ∧ first = '/' ∧ next = '*') := by
  cases prolongs with
  | letter letters more => exact .inl ⟨letters _ (List.mem_cons_self ..), more⟩
  | digit decimal more => exact .inr (.inl ⟨decimal _ (List.mem_cons_self ..), more⟩)
  | equals comparison => exact .inr (.inr (.inl ⟨rfl, comparison, rfl⟩))
  | comment => exact .inr (.inr (.inr ⟨rfl, rfl, rfl⟩))

private theorem comparison_classes :
    ∀ char ∈ ['=', '<', '>', '!'], ¬ char.isDigit ∧ ¬ char.isAlpha := by
  intro char member
  simp only [List.mem_cons, List.not_mem_nil, or_false] at member
  obtain rfl | rfl | rfl | rfl := member <;> decide

/-- Only a digit prolongs digits. -/
theorem isDigit_of_prolongs {first : Char} {more : List Char} {next : Char} (digit : first.isDigit)
    (prolongs : Prolongs (first :: more) next) : next.isDigit := by
  obtain ⟨letter, _⟩ | ⟨_, more⟩ | ⟨_, comparison, _⟩ | ⟨_, rfl, _⟩ := prolongs_cases prolongs
  · exact absurd digit (not_isDigit_of_isAlpha letter)
  · exact more
  · exact absurd digit (comparison_classes first comparison).1
  · exact absurd digit (by decide)

/-- Only a letter prolongs letters. -/
theorem isAlpha_of_prolongs {first : Char} {more : List Char} {next : Char} (letter : first.isAlpha)
    (prolongs : Prolongs (first :: more) next) : next.isAlpha := by
  obtain ⟨_, more⟩ | ⟨digit, _⟩ | ⟨_, comparison, _⟩ | ⟨_, rfl, _⟩ := prolongs_cases prolongs
  · exact more
  · exact absurd digit (not_isDigit_of_isAlpha letter)
  · exact absurd letter (comparison_classes first comparison).2
  · exact absurd letter (by decide)

/-! ### Taking and lexemes -/

/-- A character that begins no lexeme of a program is of no class that lexemes are taken by. -/
theorem Lexeme.stray_classes {char : Char} (noLexeme : ∀ kind rest, ¬ Regular kind (char :: rest)) :
    ¬ char.isDigit ∧ ¬ char.isAlpha ∧ glyphKind? char = none ∧ pairKind? char = none := by
  refine ⟨fun digit => ?_, fun letter => ?_, ?_, ?_⟩
  · exact noLexeme .number [] (.number (by simp) (by simpa using digit))
  · exact noLexeme _ [] (regular_wordKind (by simp) (by simpa using letter))
  · exact Option.eq_none_iff_forall_ne_some.mpr fun kind glyph =>
      noLexeme kind [] (regular_of_glyphKind? glyph)
  · exact Option.eq_none_iff_forall_ne_some.mpr fun kind pair =>
      noLexeme kind ['='] (regular_of_pairKind? pair)

/-- A character of no class, that is not blank either, begins no lexeme of a program and no gap. -/
theorem Lexeme.stray_of_classes {char : Char} (notDigit : ¬ char.isDigit) (notLetter : ¬ char.isAlpha)
    (noGlyph : glyphKind? char = none) (notExclamation : char ≠ '!') (notBlank : char ∉ blanks) :
    Lexeme .stray [char] := by
  have noPair : pairKind? char = none := by
    unfold pairKind?
    split
    · cases noGlyph
    · exact absurd rfl notExclamation
    · cases noGlyph
    · cases noGlyph
    · rfl
  refine .stray (fun kind rest regular => ?_) fun rest gap => ?_
  · generalize whole : char :: rest = text at regular
    cases regular with
    | fixed spelled =>
      obtain ⟨first, letters, spelling, alphabetic, _⟩ | ⟨first, spelling, _, _, pair⟩ |
        ⟨first, spelling, _, _, glyph, _⟩ := fixed_cases spelled
      · obtain rfl := (List.cons.inj (whole.trans spelling)).1
        exact notLetter (alphabetic _ (List.mem_cons_self ..))
      · obtain rfl := (List.cons.inj (whole.trans spelling)).1
        rw [noPair] at pair
        cases pair
      · obtain rfl := (List.cons.inj (whole.trans spelling)).1
        rw [noGlyph] at glyph
        cases glyph
    | identifier _ letters _ =>
      subst whole
      exact notLetter (letters _ (List.mem_cons_self ..))
    | number _ decimal =>
      subst whole
      exact notDigit (decimal _ (List.mem_cons_self ..))
  · obtain ⟨first, _, begins, isBlank⟩ | ⟨_, begins⟩ := gap.head_cases (by simp)
    · obtain rfl := (List.cons.inj begins).1
      exact notBlank isBlank
    · obtain rfl := (List.cons.inj begins).1
      cases noGlyph

/-- A lexeme that is not prolonged by what follows is taken as it stands. -/
theorem munch_of_lexeme {kind : Token.Kind} {text after : List Char} (lexeme : Lexeme kind text)
    (whole : ∀ next ∈ after.head?, ¬ Prolongs text next) :
    ∃ first rest, text = first :: rest ∧ munch first (rest ++ after) = ⟨kind, text, after⟩ := by
  cases lexeme with
  | regular isRegular =>
    cases isRegular with
    | fixed spelled =>
      obtain ⟨first, letters, spelling, alphabetic, word⟩ | ⟨first, spelling, notDigit, notLetter, pair⟩ |
        ⟨first, spelling, notDigit, notLetter, glyph, single⟩ := fixed_cases spelled
      · rw [spelling] at whole ⊢
        refine ⟨first, letters, rfl, ?_⟩
        rw [munch_word (alphabetic first (List.mem_cons_self ..))
          (fun char member => alphabetic char (List.mem_cons_of_mem _ member))
          (fun next follows more => whole next follows (.letter alphabetic more)), word]
      · rw [spelling]
        exact ⟨first, ['='], rfl, munch_pair notDigit notLetter pair after⟩
      · rw [spelling] at whole ⊢
        refine ⟨first, [], rfl, ?_⟩
        have apart : pairKind? first = none ∨ after.head? ≠ some '=' :=
          single.imp id fun comparison follows => whole '=' follows (.equals comparison)
        rw [List.nil_append, munch_single notDigit notLetter apart, glyph, Option.getD_some]
    | identifier nonempty letters unreserved =>
      obtain ⟨first, rest, rfl⟩ := List.exists_cons_of_ne_nil nonempty
      refine ⟨first, rest, rfl, ?_⟩
      rw [munch_word (letters first (List.mem_cons_self ..))
        (fun char member => letters char (List.mem_cons_of_mem _ member))
        (fun next follows more => whole next follows (.letter letters more)),
        wordKind_of_unreserved unreserved]
    | number nonempty decimal =>
      obtain ⟨first, rest, rfl⟩ := List.exists_cons_of_ne_nil nonempty
      exact ⟨first, rest, rfl, munch_number (decimal first (List.mem_cons_self ..))
        (fun char member => decimal char (List.mem_cons_of_mem _ member))
        fun next follows more => whole next follows (.digit decimal more)⟩
  | exclamation =>
    refine ⟨'!', [], rfl, ?_⟩
    have apart : after.head? ≠ some '=' := fun follows => whole '=' follows (.equals (by simp))
    rw [List.nil_append, munch_single (by decide) (by decide) (.inr apart)]
    rfl
  | @stray char noLexeme _ =>
    obtain ⟨notDigit, notLetter, noGlyph, noPair⟩ := Lexeme.stray_classes noLexeme
    refine ⟨char, [], rfl, ?_⟩
    rw [List.nil_append, munch_single notDigit notLetter (.inl noPair), noGlyph, Option.getD_none]

/-- No gap begins where a lexeme stands that is not prolonged. -/
theorem Lexeme.gapless {kind : Token.Kind} {text after : List Char} (lexeme : Lexeme kind text)
    (whole : ∀ next ∈ after.head?, ¬ Prolongs text next) : Gapless (text ++ after) := by
  obtain ⟨first, rest, rfl, taken⟩ := munch_of_lexeme lexeme whole
  constructor
  · rintro char ⟨⟩ isBlank
    have single : munch first (rest ++ after) = ⟨.stray, [first], rest ++ after⟩ := by
      simp only [blanks, List.mem_cons, List.not_mem_nil, or_false] at isBlank
      obtain rfl | rfl | rfl | rfl := isBlank <;> exact munch_single (by decide) (by decide) (.inl rfl)
    obtain ⟨rfl, shape, -⟩ := Munch.mk.inj (taken.symm.trans single)
    obtain rfl := (List.cons.inj shape).2
    cases lexeme with
    | regular isRegular => exact isRegular.kind_ne.2.2 rfl
    | exclamation => simp [blanks] at isBlank
    | stray _ noGap => exact noGap [] (.blank isBlank .empty)
  · rintro ⟨later, begins⟩
    obtain ⟨rfl, follows⟩ := List.cons.inj begins
    have single : munch '/' (rest ++ after) = ⟨.divide, ['/'], rest ++ after⟩ :=
      munch_single (by decide) (by decide) (.inl rfl)
    obtain ⟨-, shape, -⟩ := Munch.mk.inj (taken.symm.trans single)
    obtain rfl := (List.cons.inj shape).2
    have next : after.head? = some '*' := by
      rw [show after = '*' :: later from follows.symm]
      rfl
    exact whole '*' next .comment

/-- What is taken is a lexeme of a program, or a single character that is of no class. -/
theorem munch_regular_or_stray (first : Char) (after : List Char) :
    Regular (munch first after).kind (munch first after).lexeme ∨
      ((munch first after).kind = .stray ∧ (munch first after).lexeme = [first]) ∧
        ¬ first.isDigit ∧ ¬ first.isAlpha ∧ glyphKind? first = none := by
  have taken := munched first after
  generalize munch first after = longest at taken
  cases taken with
  | number digit =>
    refine .inl (.number (by simp) ?_)
    exact List.forall_mem_cons.mpr ⟨digit, fun char => List.mem_takeWhile_imp⟩
  | word letter =>
    refine .inl (regular_wordKind (by simp) ?_)
    exact List.forall_mem_cons.mpr ⟨letter, fun char => List.mem_takeWhile_imp⟩
  | pair _ _ pair => exact .inl (regular_of_pairKind? pair)
  | single notDigit notLetter =>
    cases glyph : glyphKind? first with
    | some kind => exact .inl (regular_of_glyphKind? glyph)
    | none => exact .inr ⟨⟨rfl, rfl⟩, notDigit, notLetter, rfl⟩

theorem lexeme_of_stray {first : Char} {after : List Char} (stray : (munch first after).kind = .stray) :
    (munch first after).lexeme = [first] := by
  obtain regular | ⟨⟨-, single⟩, -⟩ := munch_regular_or_stray first after
  · exact absurd stray regular.kind_ne.2.2
  · exact single

theorem munch_kind_ne (first : Char) (after : List Char) : (munch first after).kind ≠ .endOfFile := by
  obtain regular | ⟨⟨stray, -⟩, -⟩ := munch_regular_or_stray first after
  · exact regular.kind_ne.1
  · rw [stray]
    nofun

/-- Where no gap begins, the text behind what is taken does not prolong it. -/
theorem munch_not_prolonged {first : Char} {after : List Char} (gapless : Gapless (first :: after)) :
    ∀ next ∈ (munch first after).rest.head?, ¬ Prolongs (munch first after).lexeme next := by
  have taken := munched first after
  generalize munch first after = longest at taken
  intro next follows prolongs
  cases taken with
  | number digit =>
    exact head?_dropWhile_not Char.isDigit after next follows (isDigit_of_prolongs digit prolongs)
  | word letter =>
    exact head?_dropWhile_not Char.isAlpha after next follows (isAlpha_of_prolongs letter prolongs)
  | single digit letter single =>
    obtain ⟨alpha, _⟩ | ⟨decimal, _⟩ | ⟨_, comparison, rfl⟩ | ⟨_, rfl, rfl⟩ := prolongs_cases prolongs
    · exact letter alpha
    · exact digit decimal
    · obtain none | other := single
      · revert none
        simp only [List.mem_cons, List.not_mem_nil, or_false] at comparison
        obtain rfl | rfl | rfl | rfl := comparison <;> exact fun none => nomatch none
      · exact other follows
    · obtain ⟨later, rfl⟩ := List.head?_eq_some_iff.mp follows
      exact gapless.not_comment ⟨later, rfl⟩
  | pair digit letter pair =>
    obtain ⟨alpha, _⟩ | ⟨decimal, _⟩ | ⟨more, _⟩ | ⟨more, _⟩ := prolongs_cases prolongs
    · exact letter alpha
    · exact digit decimal
    · cases more
    · cases more

/-- Where no gap begins, what is taken is a lexeme, and the text behind it does not prolong it. -/
theorem lexeme_of_munch {first : Char} {after : List Char} (gapless : Gapless (first :: after)) :
    Lexeme (munch first after).kind (munch first after).lexeme ∧
      ∀ next ∈ (munch first after).rest.head?, ¬ Prolongs (munch first after).lexeme next := by
  refine ⟨?_, munch_not_prolonged gapless⟩
  obtain regular | ⟨⟨stray, single⟩, notDigit, notLetter, noGlyph⟩ := munch_regular_or_stray first after
  · exact .regular regular
  rw [stray, single]
  by_cases exclamation : first = '!'
  · subst exclamation
    exact .exclamation
  · exact Lexeme.stray_of_classes notDigit notLetter noGlyph exclamation (gapless.not_blank first rfl)

end FrontEnd.Lexer
