import FrontEnd.FileTree.Access
import FrontEnd.Path.Companion
import Mathlib.Data.List.Basic

/-! # Paths that name a file

A path that names a file is a name behind a lead, which is empty or ends with a slash. The code of
such a source has the same lead. Its listing has a lead that differs by slashes and dots that do not
count. The names of both begin with the stem of the source.
-/

namespace FrontEnd.Path

/-! ### Pieces -/

theorem pieces_ne_nil (text : List Char) : pieces text ≠ [] := by
  fun_cases pieces text <;> simp

theorem pieces_append_slash (front rest : List Char) :
    pieces (front ++ '/' :: rest) = pieces front ++ pieces rest := by
  induction front with
  | nil => rfl
  | cons char front ih =>
    by_cases slash : char = '/'
    · subst slash
      simp only [List.cons_append, pieces, ih]
    · obtain ⟨piece, later, split⟩ := List.exists_cons_of_ne_nil (pieces_ne_nil front)
      have whole : pieces (front ++ '/' :: rest) = piece :: (later ++ pieces rest) := by
        rw [ih, split, List.cons_append]
      simp only [List.cons_append, pieces, whole, split]

theorem pieces_of_not_mem {piece : List Char} (single : '/' ∉ piece) : pieces piece = [piece] := by
  induction piece with
  | nil => rfl
  | cons char rest ih =>
    obtain ⟨other, later⟩ := List.ne_and_not_mem_of_not_mem_cons single
    rw [pieces, ih later]
    exact fun slash => other slash.symm

/-! ### Leads and names -/

/-- What can stand before a file name: nothing, or text up to a slash. -/
def IsLead (lead : List Char) : Prop :=
  lead = [] ∨ ∃ directory, lead = directory ++ ['/']

/-- The pieces that lead to the directory of a file name. -/
def directoryPieces (lead : List Char) : List (List Char) :=
  (pieces lead).dropLast

theorem directoryPieces_concat (directory : List Char) :
    directoryPieces (directory ++ ['/']) = pieces directory := by
  rw [directoryPieces, pieces_append_slash]
  exact List.dropLast_concat

theorem IsLead.pieces_append {lead name : List Char} (isLead : IsLead lead) (single : '/' ∉ name) :
    pieces (lead ++ name) = directoryPieces lead ++ [name] := by
  obtain rfl | ⟨directory, rfl⟩ := isLead
  · exact pieces_of_not_mem single
  · rw [directoryPieces_concat, List.append_assoc]
    change pieces (directory ++ '/' :: name) = _
    rw [pieces_append_slash, pieces_of_not_mem single]

/-- Every text is a lead and what stands behind the last slash. -/
theorem exists_lead (text : List Char) :
    ∃ lead name, IsLead lead ∧ '/' ∉ name ∧ text = lead ++ name := by
  by_cases slash : '/' ∈ text
  · obtain ⟨backwards, before, split, single⟩ :=
      List.eq_append_cons_of_mem (List.mem_reverse.mpr slash)
    refine ⟨before.reverse ++ ['/'], backwards.reverse, .inr ⟨_, rfl⟩, by simpa using single, ?_⟩
    rw [← List.reverse_reverse text, split]
    simp
  · exact ⟨[], text, .inl rfl, slash, rfl⟩

section

variable {path : Path} {lead name : List Char}

/-- The last piece that counts is what stands behind the last slash that counts. -/
theorem lastPiece_of_body (counts : path.body = lead ++ name) (isLead : IsLead lead)
    (single : '/' ∉ name) : path.lastPiece = name := by
  have inside : ∀ char ∈ name.reverse, decide (char ≠ '/') = true := by
    intro char member
    refine decide_eq_true ?_
    rintro rfl
    exact single (List.mem_reverse.mp member)
  have stops : lead.reverse.takeWhile (· ≠ '/') = [] := by
    obtain rfl | ⟨directory, rfl⟩ := isLead <;> simp
  rw [Path.lastPiece, counts, List.reverse_append, List.takeWhile_append_of_pos inside, stops,
    List.append_nil, List.reverse_reverse]

theorem lead_of_body (counts : path.body = lead ++ name) (isLead : IsLead lead)
    (single : '/' ∉ name) : path.lead = lead := by
  rw [Path.lead, lastPiece_of_body counts isLead single, counts]
  simp

end

/-- A path that is a file name behind a lead. -/
structure Named (path : Path) (lead name : List Char) : Prop where
  chars : path.chars = lead ++ name
  isLead : IsLead lead
  single : '/' ∉ name
  isName : isFileName name = true

namespace Named

variable {path : Path} {lead name : List Char}

theorem path_eq (named : path.Named lead name) : path = ⟨lead ++ name⟩ :=
  congrArg Path.mk named.chars

theorem ne_nil (named : path.Named lead name) : name ≠ [] := by
  rintro rfl
  exact absurd named.isName (by decide)

/-- Nothing stands behind a file name that would not count. -/
theorem body (named : path.Named lead name) : path.body = lead ++ name := by
  obtain ⟨front, last, rfl⟩ := (List.eq_nil_or_concat' name).resolve_left named.ne_nil
  have notSlash : last ≠ '/' := by
    rintro rfl
    exact named.single (by simp)
  have kept : dropTrail (lead ++ (front ++ [last])).reverse = (lead ++ (front ++ [last])).reverse := by
    simp only [List.reverse_append, List.reverse_cons, List.reverse_nil, List.nil_append,
      List.cons_append]
    rw [dropTrail]
    · exact fun _ slash => absurd (List.cons.inj slash).1 notSlash
    · -- A name that ends in a dot has another character before it, which is no slash.
      intro before dotted
      obtain ⟨rfl, shape⟩ := List.cons.inj dotted
      obtain rfl | ⟨front, second, rfl⟩ := List.eq_nil_or_concat' front
      · exact absurd named.isName (by decide)
      · rw [List.reverse_append] at shape
        have slash : second = '/' := (List.cons.inj shape).1
        subst slash
        exact named.single (by simp)
  rw [Path.body, named.chars, kept, List.reverse_reverse]

theorem trail (named : path.Named lead name) : path.trail = [] := by
  rw [Path.trail, named.body, named.chars, List.drop_length]

theorem lastPiece (named : path.Named lead name) : path.lastPiece = name :=
  lastPiece_of_body named.body named.isLead named.single

theorem lead_eq (named : path.Named lead name) : path.lead = lead :=
  lead_of_body named.body named.isLead named.single

theorem fileName? (named : path.Named lead name) : path.fileName? = some name := by
  rw [Path.fileName?, named.lastPiece, if_pos named.isName]

end Named

/-! ### Parents -/

theorem dropTrail_suffix (backwards : List Char) : dropTrail backwards <:+ backwards := by
  fun_induction dropTrail backwards with
  | case1 before ih => exact ih.trans (List.suffix_cons _ _)
  | case2 before ih => exact ih.trans (List.suffix_cons _ _)
  | case3 backwards => exact List.suffix_refl _

theorem head?_dropTrail (backwards : List Char) : (dropTrail backwards).head? ≠ some '/' := by
  fun_induction dropTrail backwards with
  | case1 before ih => exact ih
  | case2 before ih => exact ih
  | case3 backwards notSlash _ =>
    intro slash
    obtain ⟨before, rfl⟩ := List.head?_eq_some_iff.mp slash
    exact notSlash before rfl

/-- Text that does not count at all is empty, or it starts at the root. -/
theorem getLast?_of_dropTrail_eq_nil {backwards : List Char} (none : dropTrail backwards = []) :
    backwards = [] ∨ backwards.getLast? = some '/' := by
  fun_induction dropTrail backwards with
  | case1 before ih =>
    obtain rfl | root := ih none
    · exact .inr rfl
    · exact .inr (by rw [List.getLast?_cons, root]; rfl)
  | case2 before ih =>
    obtain nothing | root := ih none
    · cases nothing
    · exact .inr (by rw [List.getLast?_cons, root]; rfl)
  | case3 backwards => exact .inl none

/-- The body of a text is the beginning of it. -/
theorem isPrefix_body (text : List Char) : body ⟨text⟩ <+: text := by
  rw [body, ← List.reverse_suffix, List.reverse_reverse]
  exact dropTrail_suffix text.reverse

/-- A text has no body only if it is empty or starts at the root. -/
theorem head?_of_body_eq_nil {text : List Char} (none : body ⟨text⟩ = []) :
    text = [] ∨ text.head? = some '/' := by
  have outcome := getLast?_of_dropTrail_eq_nil (List.reverse_eq_nil_iff.mp none)
  rwa [List.reverse_eq_nil_iff, List.getLast?_reverse] at outcome

theorem reverse_dropTrail_concat (directory : List Char) :
    (dropTrail (directory ++ ['/']).reverse).reverse = body ⟨directory⟩ := by
  rw [List.reverse_append]
  rfl

/-- A directory that has no body is the root, unless it is empty. -/
theorem take_of_body_eq_nil {directory : List Char} (none : body ⟨directory⟩ = []) :
    (directory ++ ['/']).take 1 = ['/'] := by
  obtain rfl | start := head?_of_body_eq_nil none
  · rfl
  · obtain ⟨rest, rfl⟩ := List.head?_eq_some_iff.mp start
    rfl

/-- The lead of a file that is named beside the one with a lead. -/
def besideLead (lead : List Char) : List Char :=
  if lead = [] then [] else body ⟨lead.dropLast⟩ ++ ['/']

theorem Named.withFileName {path : Path} {lead name : List Char} (named : path.Named lead name)
    (other : List Char) : path.withFileName other = ⟨besideLead lead ++ other⟩ := by
  rw [Path.withFileName, named.fileName?]
  change path.parent.join other = _
  rw [parent, named.lead_eq, besideLead]
  obtain rfl | ⟨directory, rfl⟩ := named.isLead
  · rfl
  · rw [reverse_dropTrail_concat, List.dropLast_concat, if_neg (by simp)]
    cases empty : Path.body ⟨directory⟩ with
    | nil =>
      simp only [take_of_body_eq_nil empty]
      rfl
    | cons first rest =>
      have ends : (first :: rest).getLast? ≠ some '/' := by
        rw [← empty, Path.body, List.getLast?_reverse]
        exact head?_dropTrail _
      simp [join, ends]

/-! ### Companions -/

theorem isPrefix_stem (name : List Char) : (splitName name).1 <+: name := by
  unfold splitName
  dsimp only
  split
  · next first before dotted =>
    have suffix : first :: before <:+ name.reverse :=
      (List.suffix_cons '.' _).trans (dotted ▸ List.dropWhile_suffix _)
    rwa [← List.reverse_prefix, List.reverse_reverse] at suffix
  · exact List.prefix_refl name

def listingName (name : List Char) : List Char :=
  (splitName name).1 ++ listingEnding

def codeName (name : List Char) : List Char :=
  match splitName name with
  | (['.'], some (_ :: _)) => ['.', '.']
  | (stem, _) => stem ++ '.' :: codeExtension

/-- The code has the stem of the source, unless there is no name left for it. -/
theorem codeName_cases (name : List Char) :
    (∃ first rest, splitName name = (['.'], some (first :: rest)) ∧ codeName name = ['.', '.']) ∨
      (∀ first rest, splitName name ≠ (['.'], some (first :: rest))) ∧
        codeName name = (splitName name).1 ++ '.' :: codeExtension := by
  unfold codeName
  split
  · next first rest shape => exact .inl ⟨first, rest, shape, rfl⟩
  · next stem ending other shape =>
    refine .inr ⟨fun first rest same => ?_, by rw [shape]⟩
    cases shape.symm.trans same
    exact other first rest rfl rfl

/-- A name is its stem, or a dot and an extension stand behind the stem. -/
theorem splitName_cases (name : List Char) :
    splitName name = (name, none) ∨
      ∃ stem ending, splitName name = (stem, some ending) ∧ name = stem ++ '.' :: ending := by
  unfold splitName
  dsimp only
  split
  · next first before dotted =>
    refine .inr ⟨_, _, rfl, ?_⟩
    have whole := List.takeWhile_append_dropWhile (p := (· ≠ '.')) (l := name.reverse)
    rw [dotted] at whole
    rw [← List.reverse_inj, List.reverse_append, List.reverse_cons, List.reverse_reverse,
      List.reverse_reverse, List.append_assoc]
    exact whole.symm
  · exact .inl rfl

/-- The code of a source that has the extension of code already is the source itself, unless there
is no name left for it. -/
theorem codeName_eq_self_iff (name : List Char) :
    codeName name = name ↔
      (splitName name).2 = some codeExtension ∧ (splitName name).1 ≠ ['.'] := by
  obtain ⟨first, rest, shape, above⟩ | ⟨other, stem⟩ := codeName_cases name
  · obtain whole | ⟨stem, ending, split, whole⟩ := splitName_cases name
    · cases shape.symm.trans whole
    · cases shape.symm.trans split
      rw [above, shape, whole]
      simp
  · rw [stem]
    obtain whole | ⟨stem, ending, split, whole⟩ := splitName_cases name
    · rw [whole]
      simp
    · rw [split]
      constructor
      · intro same
        rw [whole, List.append_cancel_left_eq] at same
        obtain rfl := (List.cons.inj same).2
        refine ⟨rfl, ?_⟩
        rintro rfl
        exact other _ _ split
      · rintro ⟨extended, -⟩
        cases extended
        exact whole.symm

theorem listingName_ne_self (name : List Char) : listingName name ≠ name := by
  obtain whole | ⟨stem, ending, split, whole⟩ := splitName_cases name
  · intro same
    rw [listingName, whole] at same
    exact absurd (List.append_right_eq_self.mp same) (by decide)
  · intro same
    rw [listingName, split, whole, List.append_cancel_left_eq] at same
    exact absurd (List.cons.inj same).1 (by decide)

theorem codeName_ne_listingName (name : List Char) : codeName name ≠ listingName name := by
  intro same
  have listed : (listingName name).getLast? = some 't' := by
    rw [listingName, List.getLast?_append]
    rfl
  rw [← same] at listed
  obtain ⟨_, _, -, above⟩ | ⟨-, stem⟩ := codeName_cases name
  · rw [above] at listed
    cases listed
  · rw [stem, List.getLast?_append] at listed
    cases listed

namespace Named

variable {source : Path} {lead name : List Char}

theorem single_stem (named : source.Named lead name) : '/' ∉ (splitName name).1 :=
  fun slash => named.single ((isPrefix_stem name).subset slash)

/-- The listing of a source is beside it. -/
theorem listing (named : source.Named lead name) :
    source.listing = ⟨besideLead lead ++ listingName name⟩ ∧ '/' ∉ listingName name ∧
      listingName name ≠ [] := by
  refine ⟨?_, ?_, ?_⟩
  · rw [Path.listing, named.withFileName, stem?, named.fileName?]
    rfl
  · simp only [listingName, List.mem_append, not_or]
    exact ⟨named.single_stem, by decide⟩
  · exact List.append_ne_nil_of_right_ne_nil _ (by decide)

/-- The code of a source is beside it. -/
theorem code (named : source.Named lead name) :
    source.code = ⟨lead ++ codeName name⟩ ∧ '/' ∉ codeName name ∧ codeName name ≠ [] := by
  obtain ⟨first, rest, shape, above⟩ | ⟨other, stem⟩ := codeName_cases name
  · rw [above]
    refine ⟨?_, by decide, by decide⟩
    rw [Path.code, withExtension, named.fileName?]
    dsimp only
    rw [shape, named.trail, named.lead_eq]
    rfl
  · rw [stem]
    refine ⟨?_, ?_, List.append_ne_nil_of_right_ne_nil _ (by decide)⟩
    · rw [Path.code, withExtension, named.fileName?]
      dsimp only
      split
      · next first rest shape => exact absurd shape (other first rest)
      · next shape => rw [shape, named.lead_eq, List.append_assoc]
    · simp only [List.mem_append, not_or]
      exact ⟨named.single_stem, by decide⟩

end Named

end FrontEnd.Path
