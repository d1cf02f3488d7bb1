import FrontEnd.Proofs.Path.Named

/-! # The files beside a source

A source that can be read lies in a directory, and the files beside it are created there. So the
listing and the code of a source are different files, and the creation of one has no bearing on
where the other is created.
-/

namespace FrontEnd.FileTree

open FrontEnd.Path

/-! ### Walks -/

/-- A piece is a name, or it stays where it is or goes to the directory above. -/
theorem piece_cases (piece : List Char) :
    isFileName piece = true ∨ piece = [] ∨ piece = ['.'] ∨ piece = ['.', '.'] := by
  by_cases isName : isFileName piece = true
  · exact .inl isName
  · simp only [isFileName, Bool.and_eq_true, decide_eq_true_eq] at isName
    grind

theorem walk_of_isFileName (tree : FileTree) (location : Location) {piece : List Char}
    (isName : isFileName piece = true) (rest : List (List Char)) :
    tree.walk location (piece :: rest) =
      if maximalName < (String.ofList piece).utf8ByteSize then .error .nameTooLong
      else
        match tree.lookup? (location ++ [String.ofList piece]) with
        | none => .error .notFound
        | some (.file _) => .error .notDirectory
        | some .directory => tree.walk (location ++ [String.ofList piece]) rest := by
  obtain ⟨⟨filled, notHere⟩, notAbove⟩ : (piece ≠ [] ∧ piece ≠ ['.']) ∧ piece ≠ ['.', '.'] := by
    simpa [isFileName] using isName
  exact walk.eq_5 tree location piece rest filled notHere notAbove

/-- A walk is its first step and then the rest. -/
theorem walk_cons (tree : FileTree) (location : Location) (piece : List Char)
    (rest : List (List Char)) :
    tree.walk location (piece :: rest) =
      (tree.walk location [piece]).bind fun next => tree.walk next rest := by
  obtain isName | rfl | rfl | rfl := piece_cases piece
  · rw [walk_of_isFileName tree location isName, walk_of_isFileName tree location isName]
    split
    · rfl
    · cases tree.lookup? (location ++ [String.ofList piece]) with
      | none => rfl
      | some entry => cases entry <;> rfl
  · rfl
  · rfl
  · rfl

theorem walk_append (tree : FileTree) (location : Location) (front rest : List (List Char)) :
    tree.walk location (front ++ rest) =
      (tree.walk location front).bind fun next => tree.walk next rest := by
  induction front generalizing location with
  | nil => rfl
  | cons piece front ih =>
    rw [List.cons_append, walk_cons tree location piece (front ++ rest),
      walk_cons tree location piece front]
    cases tree.walk location [piece] with
    | error fault => rfl
    | ok next => exact ih next

/-- What does not count at the end of a text leads nowhere else. -/
theorem walk_dropTrail (tree : FileTree) (location : Location) (backwards : List Char) :
    tree.walk location (pieces (dropTrail backwards).reverse) =
      tree.walk location (pieces backwards.reverse) := by
  have still (pieces : List (List Char)) (piece : List Char)
      (stays : ∀ next, tree.walk next [piece] = .ok next) :
      tree.walk location (pieces ++ [piece]) = tree.walk location pieces := by
    rw [walk_append]
    cases tree.walk location pieces with
    | error fault => rfl
    | ok next => exact stays next
  fun_induction dropTrail backwards with
  | case1 before ih =>
    rw [ih, List.reverse_cons, pieces_append_slash]
    exact (still _ [] fun _ => rfl).symm
  | case2 before ih =>
    have shape : ('.' :: '/' :: before).reverse = before.reverse ++ '/' :: ['.'] := by simp
    rw [ih, shape, List.reverse_cons, pieces_append_slash, pieces_append_slash]
    exact (still _ [] fun _ => rfl).trans (still _ ['.'] fun _ => rfl).symm
  | case3 backwards => rfl

/-! ### Trees that differ at one location -/

/-- Trees that cannot be told apart but by what is at a location. -/
structure SameBut (location : Location) (tree other : FileTree) : Prop where
  workingDirectory : other.workingDirectory = tree.workingDirectory
  elsewhere (place : Location) : place ≠ location → other.lookup? place = tree.lookup? place

namespace SameBut

variable {location : Location} {tree middle other : FileTree}

theorem refl (location : Location) (tree : FileTree) : SameBut location tree tree :=
  ⟨rfl, fun _ _ => rfl⟩

theorem symm (same : SameBut location tree other) : SameBut location other tree :=
  ⟨same.workingDirectory.symm, fun place away => (same.elsewhere place away).symm⟩

theorem trans (first : SameBut location tree middle) (second : SameBut location middle other) :
    SameBut location tree other where
  workingDirectory := second.workingDirectory.trans first.workingDirectory
  elsewhere place away := (second.elsewhere place away).trans (first.elsewhere place away)

/-- An entry that is put at a location makes no difference elsewhere. -/
theorem put (tree : FileTree) {location : Location} (below : location ≠ []) (entry : FileEntry) :
    SameBut location tree (tree.put location entry) where
  workingDirectory := rfl
  elsewhere place away := by rw [lookup?_put tree location place entry below, if_neg away]

/-- The same entry put at the same place into both trees makes no difference. -/
theorem both (same : SameBut location tree other) {place : Location} (below : place ≠ [])
    (entry : FileEntry) : SameBut location (tree.put place entry) (other.put place entry) where
  workingDirectory := same.workingDirectory
  elsewhere elsewhere away := by
    rw [lookup?_put _ _ _ _ below, lookup?_put _ _ _ _ below, same.elsewhere elsewhere away]

/-- A walk does not notice what is at a location, unless that is a directory. -/
theorem walk (same : SameBut location tree other) (solid : tree.lookup? location ≠ some .directory)
    {start directory : Location} {pieces : List (List Char)}
    (walked : tree.walk start pieces = .ok directory) :
    other.walk start pieces = .ok directory := by
  induction pieces generalizing start with
  | nil => exact walked
  | cons piece rest ih =>
    obtain isName | rfl | rfl | rfl := piece_cases piece
    · rw [walk_of_isFileName _ _ isName] at walked ⊢
      by_cases long : maximalName < (String.ofList piece).utf8ByteSize
      · rw [if_pos long] at walked
        cases walked
      rw [if_neg long] at walked ⊢
      cases found : tree.lookup? (start ++ [String.ofList piece]) with
      | none =>
        rw [found] at walked
        cases walked
      | some entry =>
        rw [found] at walked
        cases entry with
        | file content => cases walked
        | directory =>
          have away : start ++ [String.ofList piece] ≠ location := by
            rintro rfl
            exact solid found
          rw [same.elsewhere _ away, found]
          exact ih walked
    · exact ih walked
    · exact ih walked
    · exact ih walked

end SameBut

/-! ### Leads -/

/-- A lead that leads to a directory. -/
structure Leads (tree : FileTree) (lead : List Char) (directory : Location) : Prop where
  isLead : IsLead lead
  walk : tree.walk (tree.startOf ⟨lead⟩) (directoryPieces lead) = .ok directory

variable {tree other : FileTree} {lead name : List Char} {location directory : Location}

/-- A name has no say in where a path starts. -/
theorem startOf_append (tree : FileTree) (isLead : IsLead lead) (single : '/' ∉ name) :
    tree.startOf ⟨lead ++ name⟩ = tree.startOf ⟨lead⟩ := by
  obtain rfl | ⟨before, rfl⟩ := isLead
  · cases name with
    | nil => rfl
    | cons first rest =>
      have other : first ≠ '/' := fun slash => single (by simp [slash])
      simp [startOf, other]
  · cases before <;> rfl

theorem startOf_besideLead (tree : FileTree) (isLead : IsLead lead) :
    tree.startOf ⟨besideLead lead⟩ = tree.startOf ⟨lead⟩ := by
  obtain rfl | ⟨before, rfl⟩ := isLead
  · rfl
  have filled : before ++ ['/'] ≠ [] := by simp
  rw [besideLead, if_neg filled, List.dropLast_concat]
  cases counts : body ⟨before⟩ with
  | nil =>
    obtain rfl | root := head?_of_body_eq_nil counts
    · rfl
    · obtain ⟨rest, rfl⟩ := List.head?_eq_some_iff.mp root
      rfl
  | cons first rest =>
    obtain ⟨later, split⟩ := isPrefix_body before
    rw [counts] at split
    subst split
    rfl

/-- What lies beside a file is in the same directory. -/
theorem Leads.beside (leads : tree.Leads lead directory) :
    tree.Leads (besideLead lead) directory := by
  have walked := leads.walk
  rw [← startOf_besideLead tree leads.isLead] at walked
  obtain rfl | ⟨before, rfl⟩ := leads.isLead
  · exact ⟨.inl rfl, walked⟩
  have filled : before ++ ['/'] ≠ [] := by simp
  have shape : besideLead (before ++ ['/']) = body ⟨before⟩ ++ ['/'] := by
    rw [besideLead, if_neg filled, List.dropLast_concat]
  refine ⟨.inr ⟨_, shape⟩, ?_⟩
  rw [directoryPieces_concat] at walked
  rw [shape, directoryPieces_concat, ← shape]
  exact (walk_dropTrail tree _ before.reverse).trans ((List.reverse_reverse before).symm ▸ walked)

theorem Leads.sameBut (leads : tree.Leads lead directory) (same : SameBut location tree other)
    (solid : tree.lookup? location ≠ some .directory) : other.Leads lead directory where
  isLead := leads.isLead
  walk := by
    have start : other.startOf ⟨lead⟩ = tree.startOf ⟨lead⟩ := by
      rw [startOf, startOf, same.workingDirectory]
    rw [start]
    exact same.walk solid leads.walk

/-! ### Reading and creating files -/

/-- A path that leads to a name has that name behind a lead to its directory. -/
theorem named_of_resolve {path : Path} {text : String}
    (resolved : tree.resolve path = .ok (.named directory text false)) :
    ∃ lead name, path.Named lead name ∧ tree.Leads lead directory := by
  obtain ⟨chars⟩ := path
  obtain ⟨lead, name, isLead, single, rfl⟩ := exists_lead chars
  unfold resolve at resolved
  dsimp only at resolved
  split at resolved
  · cases resolved
  split at resolved
  · cases resolved
  split at resolved
  · cases resolved
  split at resolved
  · cases resolved
  next next walked =>
  split at resolved
  · next isName =>
    simp only [Except.ok.injEq, Destination.named.injEq, decide_eq_false_iff_not] at resolved
    obtain ⟨rfl, -, unslashed⟩ := resolved
    -- Nothing was trimmed, since no slash stands behind the name.
    have whole : ((lead ++ name).reverse.dropWhile (· = '/')).reverse = lead ++ name := by
      rw [← List.reverse_inj, List.reverse_reverse]
      refine (List.dropWhile_suffix _).eq_of_length_le ?_
      have bound := Nat.not_lt.mp unslashed
      rwa [List.length_reverse, ← List.length_reverse ] at bound
    rw [whole, isLead.pieces_append single] at walked isName
    rw [List.dropLast_concat, startOf_append tree isLead single] at walked
    rw [List.getLastD_concat] at isName
    exact ⟨lead, name, ⟨rfl, isLead, single, isName⟩, ⟨isLead, walked⟩⟩
  · cases resolved

/-- What can be read is named by its path, in a directory. -/
theorem named_of_read {path : Path} {text : String} (read : tree.read path = .ok text) :
    ∃ lead name directory, path.Named lead name ∧ tree.Leads lead directory := by
  unfold FileTree.read at read
  split at read
  · cases read
  · cases read
  · next directory last slashed resolved =>
    have unslashed : slashed = false := by
      cases slashed with
      | false => rfl
      | true => grind
    subst unslashed
    obtain ⟨lead, name, named, leads⟩ := named_of_resolve resolved
    exact ⟨lead, name, directory, named, leads⟩

theorem resolve_of_leads (leads : tree.Leads lead directory) (single : '/' ∉ name)
    (filled : name ≠ []) :
    tree.resolve ⟨lead ++ name⟩ =
      if (lead ++ name).contains '\x00' then .error .nameHoldsNul
      else if maximalPath < (String.ofList (lead ++ name)).utf8ByteSize then .error .nameTooLong
      else if isFileName name then .ok (.named directory (String.ofList name) false)
      else .ok .directory := by
  have notEmpty : (lead ++ name).isEmpty = false := by simp [filled]
  have trimmed : ((lead ++ name).reverse.dropWhile (· = '/')).reverse = lead ++ name := by
    obtain ⟨front, last, rfl⟩ := (List.eq_nil_or_concat' name).resolve_left filled
    have notSlash : last ≠ '/' := by
      rintro rfl
      exact single (by simp)
    simp [notSlash]
  unfold resolve
  simp only [trimmed, notEmpty, startOf_append tree leads.isLead single,
    leads.isLead.pieces_append single, List.dropLast_concat, leads.walk, List.getLastD_concat,
    Nat.lt_irrefl, decide_false, Bool.false_eq_true, ↓reduceIte]
  rfl

/-- The directory that a lead leads to is where the name behind it is looked for. -/
theorem named_of_leads (leads : tree.Leads lead directory) (single : '/' ∉ name)
    (filled : name ≠ []) {place : Location} {last : String} {slashed : Bool}
    (resolved : tree.resolve ⟨lead ++ name⟩ = .ok (.named place last slashed)) :
    place = directory ∧ last = String.ofList name := by
  rw [resolve_of_leads leads single filled] at resolved
  grind

/-- A file is created at its name, where no directory is. -/
theorem creationSite_ok {path : Path} (site : tree.creationSite path = .ok location) :
    ∃ directory name, tree.resolve path = .ok (.named directory name false) ∧
      location = directory ++ [name] ∧ tree.lookup? location ≠ some .directory := by
  unfold creationSite at site
  split at site
  · cases site
  · cases site
  · next directory name slashed resolved =>
    split at site
    · cases site
    · next unslashed =>
      split at site
      · cases site
      · split at site
        · cases site
        · next solid =>
          cases site
          rw [Bool.eq_false_iff.mpr unslashed] at resolved
          exact ⟨directory, name, resolved, rfl, solid⟩

theorem creationSite_ne_nil {path : Path} (site : tree.creationSite path = .ok location) :
    location ≠ [] := by
  obtain ⟨directory, name, -, rfl, -⟩ := creationSite_ok site
  simp

/-- Where a path with a name leads depends on the directory only. -/
theorem resolve_congr (leads : tree.Leads lead directory) (leads' : other.Leads lead directory)
    (single : '/' ∉ name) (filled : name ≠ []) :
    other.resolve ⟨lead ++ name⟩ = tree.resolve ⟨lead ++ name⟩ := by
  rw [resolve_of_leads leads single filled, resolve_of_leads leads' single filled]

/-- Where a file with a name is created in a directory depends on what is there only. -/
theorem creationSite_congr (leads : tree.Leads lead directory) (leads' : other.Leads lead directory)
    (single : '/' ∉ name) (filled : name ≠ [])
    (same : other.lookup? (directory ++ [String.ofList name]) =
      tree.lookup? (directory ++ [String.ofList name])) :
    other.creationSite ⟨lead ++ name⟩ = tree.creationSite ⟨lead ++ name⟩ := by
  rw [creationSite, creationSite, resolve_congr leads leads' single filled]
  split
  · rfl
  · rfl
  · next place last slashed shape =>
    obtain ⟨rfl, rfl⟩ := named_of_leads leads single filled shape
    rw [same]

section

variable {source : Path} {text : String} {place : Location}

theorem listing_site (named : source.Named lead name) (leads : tree.Leads lead directory)
    (site : tree.creationSite source.listing = .ok location) :
    location = directory ++ [String.ofList (listingName name)] := by
  obtain ⟨place, last, resolved, rfl, -⟩ := creationSite_ok site
  obtain ⟨chars, single, filled⟩ := named.listing
  rw [chars] at resolved
  obtain ⟨rfl, rfl⟩ := named_of_leads leads.beside single filled resolved
  rfl

theorem code_site (named : source.Named lead name) (leads : tree.Leads lead directory)
    (site : tree.creationSite source.code = .ok place) :
    place = directory ++ [String.ofList (codeName name)] := by
  obtain ⟨place, last, resolved, rfl, -⟩ := creationSite_ok site
  obtain ⟨chars, single, filled⟩ := named.code
  rw [chars] at resolved
  obtain ⟨rfl, rfl⟩ := named_of_leads leads single filled resolved
  rfl

/-- Files in one directory are the same if their names are. -/
theorem place_eq_iff (directory : Location) (name other : List Char) :
    directory ++ [String.ofList name] = directory ++ [String.ofList other] ↔ name = other := by
  constructor
  · intro same
    exact String.ofList_injective (List.singleton_inj.mp (List.append_cancel_left same))
  · rintro rfl
    rfl

theorem codeName_apart (directory : Location) (name : List Char) :
    directory ++ [String.ofList (codeName name)] ≠
      directory ++ [String.ofList (listingName name)] := by
  rw [Ne, place_eq_iff]
  exact codeName_ne_listingName name

/-- The listing and the code of a source that can be read are different files. -/
theorem code_site_ne (read : tree.read source = .ok text)
    (listed : tree.creationSite source.listing = .ok location)
    (coded : tree.creationSite source.code = .ok place) : place ≠ location := by
  obtain ⟨lead, name, directory, named, leads⟩ := named_of_read read
  rw [listing_site named leads listed, code_site named leads coded]
  exact codeName_apart directory name

/-- What is done to the listing of a source that can be read has no bearing on where its code is
created. -/
theorem code_creationSite (read : tree.read source = .ok text)
    (listed : tree.creationSite source.listing = .ok location)
    (same : SameBut location tree other) :
    other.creationSite source.code = tree.creationSite source.code := by
  obtain ⟨lead, name, directory, named, leads⟩ := named_of_read read
  obtain ⟨-, -, -, -, solid⟩ := creationSite_ok listed
  obtain ⟨chars, single, filled⟩ := named.code
  rw [chars]
  refine creationSite_congr leads (leads.sameBut same solid) single filled ?_
  apply same.elsewhere
  rw [listing_site named leads listed]
  exact codeName_apart directory name

end

end FrontEnd.FileTree
