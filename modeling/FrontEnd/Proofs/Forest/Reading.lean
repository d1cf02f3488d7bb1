import FrontEnd.Proofs.Forest.Traversal
import FrontEnd.Proofs.Text.Reading

/-! # Reading outlines back

The indentation of a line tells its depth, and the depths tell the shape of the trees. The detail of
an operation is indented like a branch, but no other headline is that of an operation, so the first
branch below it is the detail. Reading an outline yields the blocks it was written from, as long as
no name in them breaks a line.
-/

namespace FrontEnd

/-! ### Lines -/

/-- A text that can stand behind an indentation on a line of its own. -/
structure Text.Flush (line : String) : Prop where
  single : '\n' ∉ line.toList
  unindented : line.toList.head? ≠ some ' '

theorem Text.flush_append {opening tail : String} (flush : Text.Flush opening)
    (spoken : opening ≠ "") (single : '\n' ∉ tail.toList) : Text.Flush (opening ++ tail) where
  single := by
    rw [String.toList_append, List.mem_append, not_or]
    exact ⟨flush.single, single⟩
  unindented := by
    have unindented := flush.unindented
    rw [String.toList_append]
    cases chars : opening.toList with
    | nil => exact absurd (String.toList_eq_nil_iff.mp chars) spoken
    | cons first rest =>
      rw [chars] at unindented
      exact unindented

theorem Text.newline_not_mem_toString (value : Int) : '\n' ∉ (toString value).toList := by
  have digits (number : Nat) : '\n' ∉ (toString number).toList :=
    fun member => absurd (isDigit_of_mem_toString _ member) (by decide)
  cases value with
  | ofNat number => exact digits number
  | negSucc number =>
    change '\n' ∉ ("-" ++ toString (number + 1)).toList
    rw [String.toList_append, List.mem_append, not_or]
    exact ⟨by decide, digits _⟩

namespace Outline

def readLine (line : List Char) : Nat × String :=
  ((line.takeWhile (· = ' ')).length / Block.indent, String.ofList (line.dropWhile (· = ' ')))

/-- The lines of an outline, each with its depth; every line is ended by a newline. -/
def readLines (text : List Char) : List (Nat × String) :=
  (text.splitOn '\n').dropLast.map readLine

theorem readLine_blanks (depth : Nat) {line : String} (flush : Text.Flush line) :
    readLine (List.replicate (Block.indent * depth) ' ' ++ line.toList) = (depth, line) := by
  obtain ⟨taken, left⟩ := Text.span_blanks (Block.indent * depth) flush.unindented
  rw [readLine, taken, left, List.length_replicate, String.ofList_toList,
    Nat.mul_div_cancel_left depth (by decide)]

/-- Lines are read as they were written. -/
theorem readLines_join {rows : List (Nat × String)} (flush : ∀ row ∈ rows, Text.Flush row.2) :
    readLines (String.join (rows.map fun row => Block.lineAt row.1 row.2)).toList = rows := by
  let indented (row : Nat × String) : List Char :=
    List.replicate (Block.indent * row.1) ' ' ++ row.2.toList
  have written : (String.join (rows.map fun row => Block.lineAt row.1 row.2)).toList =
      (rows.map indented).flatMap (· ++ ['\n']) := by
    simp [String.toList_join, List.flatMap_map, Block.lineAt, indented]
  have single : ∀ line ∈ rows.map indented, '\n' ∉ line := by
    intro line member
    obtain ⟨row, listed, rfl⟩ := List.mem_map.mp member
    rw [List.mem_append, not_or]
    exact ⟨fun blank => absurd (List.eq_of_mem_replicate blank) (by decide), (flush row listed).single⟩
  rw [readLines, written, Text.dropLast_splitOn_join single, List.map_map]
  exact (List.map_congr_left fun row listed => readLine_blanks row.1 (flush row listed)).trans
    (List.map_id rows)

end Outline

/-! ### Blocks -/

/-- A block that can be told from its lines: only an operation has a detail. -/
structure Block.Legible (block : Block) : Prop where
  headline : Text.Flush block.headline
  detail : ∀ line, block.detail = some line → Text.Flush line
  marked : block.detail.isSome ↔ block.headline = "Simple Expression"

/-- Words at the start of a headline that tell it from that of an operation. -/
def Block.Opens (words : String) : Prop :=
  '\n' ∉ words.toList ∧ words.toList.head? ≠ some ' ' ∧
    ¬ words.toList.take 8 <+: "Simple Expression".toList

instance (words : String) : Decidable (Block.Opens words) :=
  inferInstanceAs (Decidable (_ ∧ _ ∧ _))

theorem Block.legible_append {words tail : String} (opens : Block.Opens words)
    (single : '\n' ∉ tail.toList) : Block.Legible ⟨words ++ tail, none⟩ := by
  obtain ⟨unbroken, unindented, plain⟩ := opens
  have spoken : words ≠ "" := by
    rintro rfl
    exact plain List.nil_prefix
  have different : words ++ tail ≠ "Simple Expression" := by
    intro same
    apply plain
    rw [← same, String.toList_append]
    exact (List.take_prefix _ _).trans (List.prefix_append _ _)
  exact ⟨Text.flush_append ⟨unbroken, unindented⟩ spoken single, nofun, by simp [different]⟩

theorem Block.legible_of_opens {words : String} (opens : Block.Opens words) :
    Block.Legible ⟨words, none⟩ := by
  have legible : Block.Legible ⟨words ++ "", none⟩ := Block.legible_append opens (by decide)
  rwa [String.append_empty] at legible

/-- The block of an operation. -/
theorem Block.legible_operation (kind : Token.Kind) :
    Block.Legible ⟨"Simple Expression", some ("Operator : " ++ kind.operatorText)⟩ := by
  have headline : Text.Flush "Simple Expression" := ⟨by decide, by decide⟩
  have words : Text.Flush "Operator : " := ⟨by decide, by decide⟩
  refine ⟨headline, fun line same => ?_, by simp⟩
  cases same
  exact Text.flush_append words (by decide) (by cases kind <;> decide)

/-- The blocks of nodes can be told from their lines, if no name breaks a line. -/
theorem Node.legible_block (node : Node)
    (unbroken : ∀ name, node.payload.name? = some name → '\n' ∉ name.toList) :
    node.block.Legible := by
  obtain ⟨kind, _, _, _, _, payload, _⟩ := node
  cases kind with
  | statement kind => cases kind <;> exact Block.legible_of_opens (by decide)
  | expression kind =>
    change (kind.block payload).Legible
    unfold ExpressionKind.block
    split
    · exact Block.legible_operation _
    · exact Block.legible_append (by decide) (Text.newline_not_mem_toString _)
    · exact Block.legible_append (by decide) (unbroken _ rfl)
    · exact Block.legible_append (by decide) (unbroken _ rfl)
    · exact Block.legible_append (by decide) (unbroken _ rfl)
    · exact Block.legible_append (by decide) (unbroken _ rfl)
    · exact Block.legible_of_opens (by decide)
    · exact Block.legible_of_opens (by decide)
  | declaration kind =>
    change (Block.mk (kind.headline payload) none).Legible
    unfold DeclarationKind.headline
    split
    · exact Block.legible_append (by decide) (unbroken _ rfl)
    · exact Block.legible_append (by decide) (unbroken _ rfl)
    · next name size =>
      have single : '\n' ∉ name.toList := unbroken name rfl
      split
      · have sized : '\n' ∉ (name ++ (" of size " ++ toString size)).toList := by
          rw [String.toList_append, String.toList_append, List.mem_append, List.mem_append, not_or,
            not_or]
          exact ⟨single, by decide, Text.newline_not_mem_toString size⟩
        rw [String.append_assoc, String.append_assoc]
        exact Block.legible_append (by decide) sized
      · exact Block.legible_append (by decide) single
    · exact Block.legible_of_opens (by decide)
  | typeName =>
    change (Block.mk payload.typeHeadline none).Legible
    unfold Payload.typeHeadline
    split <;> exact Block.legible_of_opens (by decide)

namespace Rose

mutual

/-- The lines of a tree of blocks as a tree of their own, in which a detail is the first branch. -/
def lines : Rose Block → Rose String
  | node block branches =>
    node block.headline
      ((block.detail.map fun detail => node detail []).toList ++ linesAll branches)

def linesAll : List (Rose Block) → List (Rose String)
  | [] => []
  | tree :: rest => lines tree :: linesAll rest

end

mutual

/-- The blocks of a tree of lines: the first branch of an operation is its detail. -/
def ofLine : Rose String → Rose Block
  | node line [] => node ⟨line, none⟩ []
  | node line (node first below :: branches) =>
    if line = "Simple Expression" then node ⟨line, some first⟩ (ofLines branches)
    else node ⟨line, none⟩ (ofLine (node first below) :: ofLines branches)

def ofLines : List (Rose String) → List (Rose Block)
  | [] => []
  | tree :: rest => ofLine tree :: ofLines rest

end

theorem ofLine_plain {line : String} (plain : line ≠ "Simple Expression")
    (branches : List (Rose String)) :
    ofLine (node line branches) = node ⟨line, none⟩ (ofLines branches) := by
  cases branches with
  | nil => rw [ofLine, ofLines]
  | cons first branches =>
    cases first
    rw [ofLine, if_neg plain, ofLines]

theorem outlineAll_eq_lines (depth : Nat) (trees : List (Rose Block)) :
    outlineAll depth trees =
      String.join ((preorderAll depth (linesAll trees)).map fun row => Block.lineAt row.1 row.2) := by
  induction trees using trees_induction generalizing depth with
  | nil => rfl
  | cons block branches rest below behind =>
    obtain ⟨headline, detail⟩ := block
    cases detail <;>
      simp [outlineAll, outline, linesAll, lines, Block.text, below, behind, String.append_assoc]

/-- Legible blocks are read from their lines. -/
theorem ofLines_linesAll {depth : Nat} {trees : List (Rose Block)}
    (legible : ∀ entry ∈ preorderAll depth trees, entry.2.Legible) :
    ofLines (linesAll trees) = trees := by
  induction trees using trees_induction generalizing depth with
  | nil => rfl
  | cons block branches rest below behind =>
    rw [preorderAll_cons, List.forall_mem_cons, List.forall_mem_append] at legible
    obtain ⟨here, under, after⟩ := legible
    obtain ⟨headline, detail⟩ := block
    have marked := here.marked
    rw [linesAll, lines, ofLines, behind after]
    cases detail with
    | none =>
      have plain : headline ≠ "Simple Expression" := fun same => by simpa using marked.mpr same
      simp only [Option.map_none, Option.toList_none, List.nil_append]
      rw [ofLine_plain plain, below under]
    | some detail =>
      have same : headline = "Simple Expression" := marked.mp rfl
      simp only [Option.map_some, Option.toList_some, List.singleton_append]
      rw [ofLine, if_pos same, below under]

theorem flush_of_mem_lines {depth : Nat} {trees : List (Rose Block)}
    (legible : ∀ entry ∈ preorderAll depth trees, entry.2.Legible) :
    ∀ row ∈ preorderAll depth (linesAll trees), Text.Flush row.2 := by
  induction trees using trees_induction generalizing depth with
  | nil => exact fun row member => absurd member List.not_mem_nil
  | cons block branches rest below behind =>
    rw [preorderAll_cons, List.forall_mem_cons, List.forall_mem_append] at legible
    obtain ⟨here, under, after⟩ := legible
    obtain ⟨headline, detail⟩ := block
    cases detail with
    | none =>
      rw [linesAll, lines, preorderAll_cons, List.forall_mem_cons, List.forall_mem_append]
      exact ⟨here.headline, below under, behind after⟩
    | some detail =>
      rw [linesAll, lines, preorderAll_cons, List.forall_mem_cons, List.forall_mem_append]
      refine ⟨here.headline, ?_, behind after⟩
      change ∀ row ∈ (depth + 1, detail) :: preorderAll (depth + 1) (linesAll branches), _
      rw [List.forall_mem_cons]
      exact ⟨here.detail detail rfl, below under⟩

end Rose

namespace Outline

/-- The blocks that an outline shows, as rose trees. -/
def read (text : String) : List (Rose Block) :=
  Rose.ofLines (Rose.ofPreorder (readLines text.toList))

/-- What is read from an outline is what was written. -/
theorem read_outlineAll {depth : Nat} {trees : List (Rose Block)}
    (legible : ∀ entry ∈ Rose.preorderAll depth trees, entry.2.Legible) :
    read (Rose.outlineAll depth trees) = trees := by
  rw [read, Rose.outlineAll_eq_lines, readLines_join (Rose.flush_of_mem_lines legible),
    Rose.ofPreorder_preorderAll, Rose.ofLines_linesAll legible]

end Outline

/-! ### Labels -/

/-- The lines of a block, without indentation. -/
def Block.label (block : Block) : String :=
  block.headline ++ "\n" ++ (block.detail.map (· ++ "\n")).getD ""

def Forest.labelOf (forest : Forest) (id : NodeId) : String :=
  (forest.blockOf id).label

theorem Block.toList_label (block : Block) :
    block.label.toList =
      block.headline.toList ++ '\n' :: ((block.detail.map (· ++ "\n")).getD "").toList := by
  simp [label]

theorem Block.eq_of_label_eq {first second : Block} (legible : first.Legible)
    (other : second.Legible) (same : first.label = second.label) : first = second := by
  have chars := congrArg String.toList same
  rw [toList_label, toList_label] at chars
  have lines := congrArg (List.splitOn '\n') chars
  rw [List.splitOn_append_cons_self_of_not_mem legible.headline.single,
    List.splitOn_append_cons_self_of_not_mem other.headline.single] at lines
  have headlines := (List.cons.inj lines).1
  rw [headlines, List.append_cancel_left_eq] at chars
  obtain ⟨headline, detail⟩ := first
  obtain ⟨otherHeadline, otherDetail⟩ := second
  obtain rfl : headline = otherHeadline := String.toList_inj.mp headlines
  congr 1
  cases detail <;> cases otherDetail <;> simp_all [String.toList_inj]

namespace Rose

variable {α β γ : Type}

theorem mapAll_mapAll (first : α → β) (second : β → γ) (trees : List (Rose α)) :
    mapAll second (mapAll first trees) = mapAll (fun value => second (first value)) trees := by
  induction trees using trees_induction with
  | nil => rfl
  | cons value branches rest below behind => simp only [mapAll, map, below, behind]

/-- Changes that keep values apart keep trees of them apart. -/
theorem eq_of_mapAll_eq {change : α → β} {fine : α → Prop}
    (apart : ∀ {first second}, fine first → fine second →
      change first = change second → first = second)
    {depth : Nat} {trees others : List (Rose α)}
    (allFine : ∀ entry ∈ preorderAll depth trees, fine entry.2)
    (othersFine : ∀ entry ∈ preorderAll depth others, fine entry.2)
    (same : mapAll change trees = mapAll change others) : trees = others := by
  induction trees using trees_induction generalizing depth others with
  | nil =>
    cases others with
    | nil => rfl
    | cons => simp [mapAll] at same
  | cons value branches rest below behind =>
    rcases others with _ | ⟨⟨other, otherBranches⟩, otherRest⟩
    · simp [mapAll] at same
    · rw [preorderAll_cons, List.forall_mem_cons, List.forall_mem_append] at allFine othersFine
      simp only [mapAll, map, List.cons.injEq, node.injEq] at same
      obtain rfl : value = other := apart allFine.1 othersFine.1 same.1.1
      rw [below allFine.2.1 othersFine.2.1 same.1.2, behind allFine.2.2 othersFine.2.2 same.2]

end Rose

/-! ### Outlines of forests -/

namespace Forest

open Relation

/-- No name of a node that the outline shows breaks a line. -/
def NamesUnbroken (forest : Forest) : Prop :=
  ∀ root id node name, forest.root = some root → ReflTransGen forest.Owned id root →
    forest.node? id = some node → node.payload.name? = some name → '\n' ∉ name.toList

variable {forest : Forest}

theorem Sound.legible_blocks (sound : forest.Sound) (names : forest.NamesUnbroken) :
    ∀ entry ∈ Rose.preorderAll 1 (forest.blocks forest.root), entry.2.Legible := by
  intro entry member
  have unfolds := sound.unfolds_roses fun _ => sound.root_exists
  rw [blocks, Rose.preorderAll_mapAll] at member
  obtain ⟨⟨depth, id⟩, listed, rfl⟩ := List.mem_map.mp member
  obtain ⟨root, starts, path⟩ :=
    sound.reaches_of_mem_preorderAll unfolds (List.mem_map_of_mem (f := Prod.snd) listed)
  obtain ⟨node, found⟩ := forest.has_iff.mp (sound.has_of_reaches (sound.root_exists starts) path)
  rw [blockOf_of_found found]
  exact node.legible_block fun name named => names root id node name starts path found named

/-- Reading the outline of a sound forest yields the blocks of its root chain. -/
theorem Sound.read_outline (sound : forest.Sound) (names : forest.NamesUnbroken) :
    Outline.read forest.outline = forest.blocks forest.root :=
  Outline.read_outlineAll (sound.legible_blocks names)

end Forest

namespace Script

/-- A forest that a script can build. -/
def Built (forest : Forest) : Prop :=
  ∃ status steps, ((Workbench.start status).run steps).2.forest = forest

theorem Built.sound {forest : Forest} (built : Built forest) : forest.Sound := by
  obtain ⟨status, steps, rfl⟩ := built
  exact Workbench.sound_run .empty steps

/-- Two forests have the same outline exactly if their root chains unfold into the same trees of
labels. -/
theorem outline_eq_iff {first second : Forest} (built : Built first) (otherBuilt : Built second)
    (names : first.NamesUnbroken) (otherNames : second.NamesUnbroken) :
    (∃ trees, first.Unfolds first.root trees) ∧ (∃ others, second.Unfolds second.root others) ∧
      ∀ trees others, first.Unfolds first.root trees → second.Unfolds second.root others →
        (first.outline = second.outline ↔
          Rose.mapAll first.labelOf trees = Rose.mapAll second.labelOf others) := by
  have sound := built.sound
  have otherSound := otherBuilt.sound
  have unfolds := sound.unfolds_roses fun _ => sound.root_exists
  have otherUnfolds := otherSound.unfolds_roses fun _ => otherSound.root_exists
  refine ⟨⟨_, unfolds⟩, ⟨_, otherUnfolds⟩, fun trees others hasTrees hasOthers => ?_⟩
  rw [hasTrees.unique unfolds, hasOthers.unique otherUnfolds]
  have labels (forest : Forest) : Rose.mapAll forest.labelOf (forest.roses forest.root) =
      Rose.mapAll Block.label (forest.blocks forest.root) :=
    (Rose.mapAll_mapAll forest.blockOf Block.label _).symm
  rw [labels, labels]
  constructor
  · intro same
    rw [← sound.read_outline names, ← otherSound.read_outline otherNames, same]
  · intro same
    have blocks := Rose.eq_of_mapAll_eq Block.eq_of_label_eq (sound.legible_blocks names)
      (otherSound.legible_blocks otherNames) same
    exact congrArg (Rose.outlineAll 1) blocks

/-- An addition of a variable that is named like the detail of one, in a slot of the addition. -/
def additionSteps (slot : Nat) : List ForestStep :=
  [.make (.expression .operation) (some (.operator .plus)),
    .make (.expression .reference) (some (.name "Operator : +")),
    .attachChild ⟨0⟩ slot ⟨1⟩, .makeRoot ⟨0⟩]

theorem outline_eq_iff_addition :
    let first := ((Workbench.start {}).run (additionSteps 0)).2.forest
    let second := ((Workbench.start {}).run (additionSteps 2)).2.forest
    (Built first ∧ Built second ∧ first.NamesUnbroken ∧ second.NamesUnbroken) ∧
      (∃ trees, first.Unfolds first.root trees) ∧ (∃ others, second.Unfolds second.root others) ∧
        ∀ trees others, first.Unfolds first.root trees → second.Unfolds second.root others →
          (first.outline = second.outline ↔
            Rose.mapAll first.labelOf trees = Rose.mapAll second.labelOf others) := by
  intro first second
  have names {forest : Forest} (all : ∀ node ∈ forest.nodes.toList,
      (node.payload.name?.all fun name => '\n' ∉ name.toList) = true) : forest.NamesUnbroken := by
    intro _ id node name _ _ found named
    have member := all node (Array.mem_toList_iff.mpr (Array.mem_of_getElem? found))
    simpa [named] using member
  have firstBuilt : Built first := ⟨_, _, rfl⟩
  have secondBuilt : Built second := ⟨_, _, rfl⟩
  have firstNames : first.NamesUnbroken := names (by decide)
  have secondNames : second.NamesUnbroken := names (by decide)
  exact ⟨⟨firstBuilt, secondBuilt, firstNames, secondNames⟩,
    outline_eq_iff firstBuilt secondBuilt firstNames secondNames⟩

end Script

end FrontEnd
