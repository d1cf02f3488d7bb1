import FrontEnd.Proofs.Path.Named

/-! # The files beside a source

A program that names a file has a source with an extension, and the listing and the code of that
source are in its directory and share its stem. There is one exception: a source whose stem is a
single dot has no code of its own, unless something stands behind its name that does not count.
-/

namespace FrontEnd.Path

/-! ### What counts -/

/-- Once removed, the end of a text that does not count is gone. -/
theorem dropTrail_dropTrail (backwards : List Char) :
    dropTrail (dropTrail backwards) = dropTrail backwards := by
  fun_induction dropTrail backwards with
  | case1 before ih => exact ih
  | case2 before ih => exact ih
  | case3 backwards notSlash notDot => rw [dropTrail.eq_3 _ notSlash notDot]

section

variable (path : Path)

theorem body_body : Path.body ⟨path.body⟩ = path.body := by
  rw [Path.body, Path.body, List.reverse_reverse, dropTrail_dropTrail]

theorem lastPiece_body : Path.lastPiece ⟨path.body⟩ = path.lastPiece := by
  rw [Path.lastPiece, Path.lastPiece, body_body]

theorem lead_body : Path.lead ⟨path.body⟩ = path.lead := by
  rw [Path.lead, Path.lead, lastPiece_body, body_body]

theorem fileName?_body : Path.fileName? ⟨path.body⟩ = path.fileName? := by
  rw [Path.fileName?, Path.fileName?, lastPiece_body]

theorem parent_body : Path.parent ⟨path.body⟩ = path.parent := by
  rw [Path.parent, Path.parent, lead_body]

theorem listing_body {name : List Char} (named : path.fileName? = some name) :
    Path.listing ⟨path.body⟩ = path.listing := by
  have same := fileName?_body path
  simp only [Path.listing, Path.stem?, Path.withFileName, same, named, parent_body]

end

/-- A path that has a file name names it, but for what does not count. -/
theorem named_body {path : Path} {name : List Char} (found : path.fileName? = some name) :
    Named ⟨path.body⟩ path.lead name := by
  obtain ⟨lead, last, isLead, single, split⟩ := exists_lead path.body
  have isLast := lastPiece_of_body split isLead single
  rw [Path.fileName?, isLast] at found
  split at found
  · next isName =>
    cases found
    exact ⟨by rw [lead_of_body split isLead single]; exact split,
      by rwa [lead_of_body split isLead single], single, isName⟩
  · cases found

/-! ### Stems and extensions -/

theorem stem_ne_nil {name : List Char} (nonempty : name ≠ []) : (splitName name).1 ≠ [] := by
  unfold splitName
  dsimp only
  split
  · simp
  · exact nonempty

/-- A name is taken apart at the last dot that has something before it. -/
theorem splitName_concat {stem extension : List Char} (nonempty : stem ≠ [])
    (single : '.' ∉ extension) : splitName (stem ++ '.' :: extension) = (stem, some extension) := by
  have backwards : (stem ++ '.' :: extension).reverse = extension.reverse ++ '.' :: stem.reverse := by
    simp
  have inside : ∀ char ∈ extension.reverse, decide (char ≠ '.') = true := by
    intro char member
    refine decide_eq_true ?_
    rintro rfl
    exact single (List.mem_reverse.mp member)
  have before : (extension.reverse ++ '.' :: stem.reverse).dropWhile (· ≠ '.') = '.' :: stem.reverse := by
    rw [List.dropWhile_append_of_pos inside]
    rfl
  have behind : (extension.reverse ++ '.' :: stem.reverse).takeWhile (· ≠ '.') = extension.reverse := by
    rw [List.takeWhile_append_of_pos inside]
    simp
  obtain ⟨first, rest, shape⟩ := List.exists_cons_of_ne_nil (List.reverse_ne_nil_iff.mpr nonempty)
  have whole : (first :: rest).reverse = stem := by rw [← shape, List.reverse_reverse]
  rw [splitName, backwards, before, behind, shape, List.reverse_reverse]
  exact congrArg (·, some extension) whole

/-- The stem of a file name is a single dot only if the name starts with two dots. -/
theorem splitName_of_dot {name : List Char} (isName : isFileName name = true)
    (dot : (splitName name).1 = ['.']) :
    ∃ first rest, splitName name = (['.'], some (first :: rest)) := by
  obtain whole | ⟨stem, extension, split, whole⟩ := splitName_cases name
  · rw [whole] at dot
    subst dot
    exact absurd isName (by decide)
  · rw [split] at dot
    cases dot
    cases extension with
    | nil =>
      subst whole
      exact absurd isName (by decide)
    | cons first rest => exact ⟨first, rest, split⟩

theorem isFileName_of_length {piece : List Char} (long : 2 < piece.length) :
    isFileName piece = true := by
  have other (short : List Char) (bound : short.length ≤ 2) : piece ≠ short := by
    rintro rfl
    omega
  simp [isFileName, other]

/-- A stem and an extension make a file name. -/
theorem named_concat {lead stem extension : List Char} (isLead : IsLead lead) (nonempty : stem ≠ [])
    (single : '/' ∉ stem) (single' : '/' ∉ extension) (more : extension ≠ []) :
    Named ⟨lead ++ (stem ++ '.' :: extension)⟩ lead (stem ++ '.' :: extension) where
  chars := rfl
  isLead := isLead
  single := by simp [single, single']
  isName := by
    have before := List.length_pos_of_ne_nil nonempty
    have behind := List.length_pos_of_ne_nil more
    refine isFileName_of_length ?_
    rw [List.length_append, List.length_cons]
    omega

/-! ### Directories -/

theorem parent_congr {path other : Path} (same : path.lead = other.lead) :
    path.parent = other.parent := by
  rw [parent, parent, same]

/-- What is beside a file is in the same directory. -/
theorem parent_beside {path other : Path} (isLead : IsLead other.lead)
    (beside : path.lead = besideLead other.lead) : path.parent = other.parent := by
  obtain none | ⟨directory, some⟩ := isLead
  · exact parent_congr (by rw [beside, none]; rfl)
  · have lead : path.lead = Path.body ⟨directory⟩ ++ ['/'] := by
      rw [beside, some, besideLead, if_neg (by simp), List.dropLast_concat]
    rw [parent, parent, lead, some, reverse_dropTrail_concat, reverse_dropTrail_concat, body_body]
    cases empty : Path.body ⟨directory⟩ with
    | nil => simp only [take_of_body_eq_nil empty]; rfl
    | cons first rest => rfl

section

variable {source : Path} {name : List Char} (found : source.fileName? = some name)

include found

/-- The listing of a source is in its directory and named after its stem. -/
theorem listing_beside :
    source.listing.parent = source.parent ∧
      source.listing.fileName? = some ((splitName name).1 ++ listingEnding) := by
  have named := named_body found
  obtain ⟨listed, single, _⟩ := named.listing
  have beside : source.listing.Named (besideLead source.lead) (listingName name) := by
    rw [← listing_body source found, listed]
    refine ⟨rfl, ?_, single, ?_⟩
    · unfold besideLead
      split
      · exact .inl rfl
      · exact .inr ⟨_, rfl⟩
    · refine isFileName_of_length ?_
      rw [listingName, List.length_append]
      exact Nat.lt_of_lt_of_le (by decide) (Nat.le_add_left _ _)
  exact ⟨parent_beside named.isLead beside.lead_eq, beside.fileName?⟩

/-- An extension is put behind the stem, but for a stem that is a single dot and ends the path. -/
theorem withExtension_cases (extension : List Char) :
    ((splitName name).1 = ['.'] ∧ source.trail = [] ∧
        source.withExtension extension = ⟨source.lead ++ ['.', '.']⟩) ∨
      (¬ ((splitName name).1 = ['.'] ∧ source.trail = []) ∧
        source.withExtension extension =
          ⟨source.lead ++ ((splitName name).1 ++ '.' :: extension)⟩) := by
  rw [withExtension, found]
  dsimp only
  by_cases dot : (splitName name).1 = ['.']
  · have isName := (named_body found).isName
    obtain ⟨first, rest, split⟩ := splitName_of_dot isName dot
    rw [split]
    cases ends : source.trail with
    | nil => exact .inl ⟨rfl, rfl, rfl⟩
    | cons next later =>
      refine .inr ⟨?_, ?_⟩
      · rintro ⟨_, none⟩
        cases none
      · simp
  · refine .inr ⟨fun both => dot both.1, ?_⟩
    split
    · next split => exact absurd (congrArg Prod.fst split) dot
    · next stem _ _ split => rw [split, List.append_assoc]

/-- The code of a source is in its directory and named after its stem, but for a stem that is a
single dot and ends the path: no name is left of that. -/
theorem code_beside :
    let stem := (splitName name).1
    source.code.parent = source.parent ∧
      ((stem = ['.'] ∧ source.trail = [] ∧ source.code = ⟨source.lead ++ ['.', '.']⟩ ∧
          source.code.fileName? = none) ∨
        (¬ (stem = ['.'] ∧ source.trail = []) ∧
          source.code.fileName? = some (stem ++ '.' :: codeExtension) ∧
          source.code.stem? = some stem)) := by
  intro stem
  have named := named_body found
  obtain ⟨dot, ends, code⟩ | ⟨other, code⟩ := withExtension_cases found codeExtension
  · have counts : source.code.body = source.lead ++ ['.', '.'] := by
      rw [Path.code, code, Path.body]
      simp [dropTrail]
    have double : source.code.lastPiece = ['.', '.'] :=
      lastPiece_of_body counts named.isLead (by decide)
    have noName : source.code.fileName? = none := by
      rw [Path.fileName?, double]
      rfl
    exact ⟨parent_congr (lead_of_body counts named.isLead (by decide)),
      .inl ⟨dot, ends, code, noName⟩⟩
  · have nonempty : stem ≠ [] := stem_ne_nil named.ne_nil
    have coded : source.code.Named source.lead (stem ++ '.' :: codeExtension) := by
      rw [Path.code, code]
      exact named_concat named.isLead nonempty named.single_stem (by decide) (by decide)
    refine ⟨parent_congr coded.lead_eq, .inr ⟨other, coded.fileName?, ?_⟩⟩
    rw [stem?, coded.fileName?, Option.map_some, splitName_concat nonempty (by decide)]

end

/-! ### Sources -/

/-- The source of a program without an extension has the whole name of the program as its stem. -/
theorem named_source {program : String} {name : List Char}
    (found : (ofText program).fileName? = some name) (plain : (ofText program).extension? = none) :
    (ofProgram program).Named (ofText program).lead (name ++ '.' :: sourceExtension) := by
  have named := named_body found
  have whole : splitName name = (name, none) := by
    obtain whole | ⟨stem, extension, split, _⟩ := splitName_cases name
    · exact whole
    · rw [Path.extension?, found, Option.bind_some, split] at plain
      cases plain
  have added : ofProgram program = ⟨(ofText program).lead ++ (name ++ '.' :: sourceExtension)⟩ := by
    rw [ofProgram, plain]
    obtain ⟨dot, -, -⟩ | ⟨-, shape⟩ := withExtension_cases found sourceExtension
    · obtain ⟨first, rest, split⟩ := splitName_of_dot named.isName dot
      cases whole.symm.trans split
    · rw [whole] at shape
      exact shape
  rw [added]
  exact named_concat named.isLead named.ne_nil named.single (by decide) (by decide)

/-- A path that has an extension or names no file is its own source. -/
theorem ofProgram_text {path : Path} (kept : path.extension?.isSome ∨ path.fileName? = none) :
    ofProgram path.text = path := by
  have same : ofText path.text = path := by rw [ofText, text, String.toList_ofList]
  rw [ofProgram, same]
  split
  · rfl
  · next plain => rw [withExtension, kept.resolve_left plain]

/-- What the files of a program that names a file are called. -/
structure Companions (path source : Path) (name stem extension : List Char) : Prop where
  source_stem : source.stem? = some stem
  source_extension : source.extension? = some extension
  whole : path.extension? = none → stem = name ∧ extension = sourceExtension
  listing_parent : source.listing.parent = source.parent
  listing_name : source.listing.fileName? = some (stem ++ listingEnding)
  code_parent : source.code.parent = source.parent
  /-- The code shares the stem of the source. -/
  code_name : ¬ (stem = ['.'] ∧ source.trail = []) →
    source.code.fileName? = some (stem ++ '.' :: codeExtension) ∧ source.code.stem? = some stem
  /-- A stem that is a single dot and ends the path leaves no name for the code. -/
  code_lost : stem = ['.'] → source.trail = [] →
    source.code = ⟨source.lead ++ ['.', '.']⟩ ∧ source.code.fileName? = none

theorem companions_of_name {path source : Path} {name own extension : List Char}
    (found : source.fileName? = some own) (extended : source.extension? = some extension)
    (whole : path.extension? = none → (splitName own).1 = name ∧ extension = sourceExtension) :
    Companions path source name (splitName own).1 extension := by
  obtain ⟨listingParent, listingName⟩ := listing_beside found
  obtain ⟨codeParent, code⟩ := code_beside found
  refine ⟨by rw [stem?, found, Option.map_some], extended, whole, listingParent, listingName,
    codeParent, fun other => ?_, fun dot ends => ?_⟩
  · obtain ⟨dot, ends, _⟩ | ⟨_, named⟩ := code
    · exact absurd ⟨dot, ends⟩ other
    · exact named
  · obtain ⟨_, _, lost⟩ | ⟨other, _⟩ := code
    · exact lost
    · exact absurd ⟨dot, ends⟩ other

/-- The source of a program is its own source, and is the program itself exactly if that has an
extension or names no file. If it names a file, the source has an extension, and the listing and the
code are in the directory of the source. Both have its stem, but for the code of a source whose stem
is a single dot. -/
theorem files_of_program (program : String) :
    ofProgram (ofProgram program).text = ofProgram program ∧
      (ofProgram program = ofText program ↔
        (ofText program).extension?.isSome ∨ (ofText program).fileName? = none) ∧
      ∀ name, (ofText program).fileName? = some name →
        ∃ stem extension, Companions (ofText program) (ofProgram program) name stem extension := by
  by_cases kept : (ofText program).extension?.isSome ∨ (ofText program).fileName? = none
  · have read : (ofText program).text = program := String.ofList_toList
    have same : ofProgram program = ofText program := by rw [← ofProgram_text kept, read]
    have again : ofProgram (ofProgram program).text = ofProgram program := by
      rw [same, ofProgram_text kept]
    refine ⟨again, iff_of_true same kept, fun name found => ?_⟩
    have extended := kept.resolve_right (by rw [found]; nofun)
    obtain ⟨extension, has⟩ := Option.isSome_iff_exists.mp extended
    rw [same]
    refine ⟨_, extension, companions_of_name found has fun plain => ?_⟩
    rw [plain] at has
    cases has
  · obtain ⟨unextended, names⟩ := not_or.mp kept
    have plain : (ofText program).extension? = none := by simpa using unextended
    obtain ⟨name, found⟩ := Option.ne_none_iff_exists'.mp names
    have named := named_source found plain
    have split : splitName (name ++ '.' :: sourceExtension) = (name, some sourceExtension) :=
      splitName_concat (named_body found).ne_nil (by decide)
    have extended : (ofProgram program).extension? = some sourceExtension := by
      rw [extension?, named.fileName?, Option.bind_some, split]
    have other : ofProgram program ≠ ofText program := by
      intro same
      rw [same, plain] at extended
      cases extended
    refine ⟨ofProgram_text (.inl (by rw [extended]; rfl)), iff_of_false other kept, ?_⟩
    intro same found'
    obtain rfl := Option.some.inj (found.symm.trans found')
    exact ⟨_, _, companions_of_name named.fileName? extended fun _ => ⟨congrArg Prod.fst split, rfl⟩⟩

/-- A program that is two dots and a letter has a stem, but its code is not a file of that stem. -/
theorem code_without_stem :
    ¬ ∀ program name, (ofText program).fileName? = some name →
      ∃ stem, (ofProgram program).stem? = some stem ∧
        (ofProgram program).code.fileName? = some (stem ++ '.' :: codeExtension) := by
  intro shared
  obtain ⟨stem, -, coded⟩ := shared "..y" "..y".toList (by decide)
  have noName : (ofProgram "..y").code.fileName? = none := by decide
  rw [noName] at coded
  cases coded

end FrontEnd.Path
