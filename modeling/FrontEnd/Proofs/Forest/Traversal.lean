import FrontEnd.Forest.Outline
import FrontEnd.Proofs.Forest.Preservation
import FrontEnd.Proofs.Forest.Unfolding

/-! # Outlines as traversals

The outline of a chain shows the blocks of its nodes in depth-first order. In a sound forest these
are the nodes whose owners lead to the start of the chain, each shown once, and each indented by the
child links above it. The headline of a block is decided by the kind and the payload of its node.
What is shown depends on the kinds, the payloads and the links of these nodes and on nothing else.
-/

namespace FrontEnd

/-! ### Blocks -/

def Node.operator? (node : Node) : Option Token.Kind :=
  match node.kind, node.payload with
  | .expression .operation, .operator kind => some kind
  | _, _ => none

/-- Whether a payload is one that nodes of a kind are shown with; parameters are shown with none. -/
def NodeKind.fits : NodeKind → Payload → Bool
  | .statement _, _ | .expression .assignment, _ => true
  | .expression .operation, .operator _ | .expression .constant, .value _ => true
  | .expression .reference, .name _ | .expression .call, .name _ => true
  | .expression .arrayElement, .name _ | .expression .arrayElement, .array .. => true
  | .declaration .function, .name _ | .declaration .scalar, .name _ => true
  | .declaration .array, .array .. => true
  | .typeName, .primitive _ => true
  | _, _ => false

/-- The headline of a node whose payload does not fit its kind; every payload fits a statement. -/
def NodeKind.unknownHeadline? : NodeKind → Option String
  | .statement _ => none
  | .expression _ => some "Unknown ExpNode kind"
  | .declaration _ => some "Unknown Declaration Node Kind"
  | .typeName => some "Unknown Type Node Kind"

/-- The headline of a node of a kind with a payload. -/
inductive NodeKind.Headed : NodeKind → Payload → String → Prop where
  | ifElse (payload : Payload) : Headed (.statement .ifElse) payload "If"
  | whileLoop (payload : Payload) : Headed (.statement .whileLoop) payload "While"
  | returnValue (payload : Payload) : Headed (.statement .returnValue) payload "Return"
  | compound (payload : Payload) : Headed (.statement .compound) payload "Compound Statement"
  | operation (kind : Token.Kind) :
      Headed (.expression .operation) (.operator kind) "Simple Expression"
  | constant (value : Int) :
      Headed (.expression .constant) (.value value) ("Constant : " ++ toString value)
  | reference (name : String) : Headed (.expression .reference) (.name name) ("Variable : " ++ name)
  | element (name : String) :
      Headed (.expression .arrayElement) (.name name) ("Array ID : " ++ name)
  | elementOf (name : String) (size : Int) :
      Headed (.expression .arrayElement) (.array name size) ("Array ID : " ++ name)
  | call (name : String) : Headed (.expression .call) (.name name) ("Call to " ++ name)
  | assignment (payload : Payload) : Headed (.expression .assignment) payload "Assign : ="
  | function (name : String) :
      Headed (.declaration .function) (.name name) ("Function Declare : " ++ name)
  | scalar (name : String) :
      Headed (.declaration .scalar) (.name name) ("Variable Declare : " ++ name)
  | sized (name : String) {size : Int} (given : 0 ≤ size) :
      Headed (.declaration .array) (.array name size)
        ("Array Variable Allocate : " ++ name ++ " of size " ++ toString size)
  | unsized (name : String) {size : Int} (missing : size < 0) :
      Headed (.declaration .array) (.array name size) ("Array Variable Declare : " ++ name)
  | intType : Headed .typeName (.primitive .intWord) "Type : int"
  | voidType : Headed .typeName (.primitive .voidWord) "Type : void"
  | otherType {kind : Token.Kind} (notInt : kind ≠ .intWord) (notVoid : kind ≠ .voidWord) :
      Headed .typeName (.primitive kind) "Type : Unknown Variable Type"
  | unknown {kind : NodeKind} {payload : Payload} {headline : String}
      (unfit : kind.fits payload = false) (named : kind.unknownHeadline? = some headline) :
      Headed kind payload headline

/-- The operators and how they are written. -/
def Token.Kind.operators : List (Token.Kind × String) :=
  [(.assign, "="), (.equal, "=="), (.notEqual, "!="), (.less, "<"), (.lessOrEqual, "<="),
    (.greater, ">"), (.greaterOrEqual, ">="), (.plus, "+"), (.minus, "-"), (.times, "*"),
    (.divide, "/")]

theorem Token.Kind.operatorText_eq (kind : Token.Kind) :
    kind.operatorText = (operators.lookup kind).getD "Not assigned OP token" := by
  cases kind <;> rfl

/-- The block of a node has the headline of its kind and its payload. -/
theorem Node.headed_block (node : Node) : node.kind.Headed node.payload node.block.headline := by
  obtain ⟨kind, _, _, _, _, payload, _⟩ := node
  cases kind with
  | statement kind =>
    cases kind with
    | ifElse => exact .ifElse payload
    | whileLoop => exact .whileLoop payload
    | returnValue => exact .returnValue payload
    | compound => exact .compound payload
  | expression kind =>
    change NodeKind.Headed (.expression kind) payload (kind.block payload).headline
    unfold ExpressionKind.block
    split
    · exact .operation _
    · exact .constant _
    · exact .reference _
    · exact .element _
    · exact .elementOf _ _
    · exact .call _
    · exact .assignment _
    · refine .unknown ?_ rfl
      cases kind <;> cases payload <;> simp_all [NodeKind.fits]
  | declaration kind =>
    change NodeKind.Headed (.declaration kind) payload (kind.headline payload)
    unfold DeclarationKind.headline
    split
    · exact .function _
    · exact .scalar _
    · split
      · next given => exact .sized _ (of_decide_eq_true given)
      · next missing => exact .unsized _ (Int.not_le.mp fun given => missing (decide_eq_true given))
    · refine .unknown ?_ rfl
      cases kind <;> cases payload <;> simp_all [NodeKind.fits]
  | typeName =>
    change NodeKind.Headed .typeName payload payload.typeHeadline
    unfold Payload.typeHeadline
    split
    · exact .intType
    · exact .voidType
    · next notInt notVoid => exact .otherType notInt notVoid
    · refine .unknown ?_ rfl
      cases payload <;> simp_all [NodeKind.fits]

/-- A headline says that a node is unknown exactly if its payload does not fit its kind. -/
theorem NodeKind.Headed.eq_unknown_iff {kind : NodeKind} {payload : Payload} {headline : String}
    (headed : kind.Headed payload headline) :
    kind.unknownHeadline? = some headline ↔ kind.fits payload = false := by
  cases headed with
  | unknown unfit named => exact ⟨fun _ => unfit, fun _ => named⟩
  | _ => simp [unknownHeadline?, fits, String.ext_iff]

theorem Node.detail_block (node : Node) :
    node.block.detail = node.operator?.map fun kind => "Operator : " ++ kind.operatorText := by
  obtain ⟨kind, _, _, _, _, payload, _⟩ := node
  cases kind with
  | expression kind => cases kind <;> cases payload <;> rfl
  | statement | declaration | typeName => rfl

/-- The block of a node is its headline, and for an operation its operator, each on its own line. -/
theorem Node.text_block (node : Node) (depth : Nat) :
    node.block.text depth =
      String.ofList (List.replicate (2 * depth) ' ') ++ node.block.headline ++ "\n" ++
        match node.operator? with
        | none => ""
        | some kind =>
          String.ofList (List.replicate (2 * (depth + 1)) ' ') ++ "Operator : " ++
            (Token.Kind.operators.lookup kind).getD "Not assigned OP token" ++ "\n" := by
  rw [Block.text, Node.detail_block]
  cases node.operator? with
  | none => rfl
  | some kind =>
    simp only [Block.lineAt, Block.indent, Text.blanks, Option.map_some, Option.getD_some,
      Token.Kind.operatorText_eq, String.append_assoc]

/-- Nodes that differ in their lines, their owners and their types at most. -/
structure Node.Resembles (twin node : Node) : Prop where
  kind : twin.kind = node.kind
  payload : twin.payload = node.payload
  link : ∀ side, twin.link side = node.link side

theorem Node.Resembles.block {twin node : Node} (resembles : twin.Resembles node) :
    twin.block = node.block := by
  simp only [Node.block, resembles.kind, resembles.payload]

/-! ### Outlines in depth-first order -/

/-- An outline is made of the blocks of its trees in depth-first order. -/
theorem Rose.outlineAll_eq_join (depth : Nat) (trees : List (Rose Block)) :
    outlineAll depth trees =
      String.join ((preorderAll depth trees).map fun entry => entry.2.text entry.1) := by
  induction trees using trees_induction generalizing depth with
  | nil => rfl
  | cons block branches rest below behind =>
    rw [outlineAll, outline, below, behind, preorderAll_cons, List.map_cons, List.map_append,
      String.join_cons, String.join_append, String.append_assoc]

namespace Forest

open Relation

variable {forest other : Forest} {start : Option NodeId} {trees : List (Rose NodeId)}

theorem blockOf_of_found {id : NodeId} {node : Node} (found : forest.node? id = some node) :
    forest.blockOf id = node.block := by
  rw [blockOf, found, Option.map_some, Option.getD_some]

theorem outlineFrom_eq_join (forest : Forest) (start : Option NodeId) :
    forest.outlineFrom start =
      String.join ((Rose.preorderAll 1 (forest.roses start)).map fun entry =>
        (forest.blockOf entry.2).text entry.1) := by
  rw [outlineFrom, blocks, Rose.outlineAll_eq_join, Rose.preorderAll_mapAll, List.map_map]
  rfl

/-- A forest in which the nodes of a chain look the same unfolds it into the same trees. -/
theorem Unfolds.transfer (unfolds : forest.Unfolds start trees) {base : Nat}
    (twins : ∀ id ∈ (Rose.preorderAll base trees).map Prod.snd, ∀ node, forest.node? id = some node →
      ∃ twin, other.node? id = some twin ∧ twin.Resembles node) : other.Unfolds start trees := by
  induction unfolds generalizing base with
  | nil => exact .nil
  | @cons first node branches rest found _ _ below behind =>
    rw [Rose.preorderAll_cons, Rose.preorderAll_flatMap, List.map_cons, List.map_append,
      List.map_flatMap] at twins
    obtain ⟨twin, here, resembles⟩ := twins first (List.mem_cons_self ..) node found
    refine .cons here (fun slot => ?_) ?_
    · rw [resembles.link]
      refine @below slot (base + 1) fun id member => twins id (List.mem_cons_of_mem _ ?_)
      exact List.mem_append_left _ (List.mem_flatMap_of_mem (List.mem_finRange slot) member)
    · rw [resembles.link]
      refine @behind base fun id member => twins id (List.mem_cons_of_mem _ ?_)
      exact List.mem_append_right _ member

/-! ### The traversal of a chain -/

/-- An outline as a traversal: the nodes that are visited, with their depths, in order. -/
structure Traversal (forest : Forest) (start : NodeId) (visited : List (Nat × NodeId)) : Prop where
  /-- The outline is the blocks of the visited nodes, one after the other. -/
  text : forest.outlineFrom (some start) =
    String.join (visited.map fun entry => (forest.blockOf entry.2).text entry.1)
  once : (visited.map Prod.snd).Nodup
  /-- The visited nodes are those whose owners lead to the start. -/
  covers : ∀ id, id ∈ visited.map Prod.snd ↔ ReflTransGen forest.Owned id start
  /-- The start is at depth one, and each child link goes one deeper. -/
  depth : ∀ depth id, (depth, id) ∈ visited ↔
    ∃ below, forest.Descends start id below ∧ depth = 1 + below
  /-- The block of a node has the headline of its kind and payload, which says if these do not fit,
  and for an operation its operator, each on a line of its own. -/
  block : ∀ id ∈ visited.map Prod.snd, ∃ node headline, forest.node? id = some node ∧
    node.kind.Headed node.payload headline ∧
    (node.kind.unknownHeadline? = some headline ↔ node.kind.fits node.payload = false) ∧
    ∀ depth, (forest.blockOf id).text depth =
      String.ofList (List.replicate (2 * depth) ' ') ++ headline ++ "\n" ++
        match node.operator? with
        | none => ""
        | some kind =>
          String.ofList (List.replicate (2 * (depth + 1)) ' ') ++ "Operator : " ++
            (Token.Kind.operators.lookup kind).getD "Not assigned OP token" ++ "\n"
  /-- Nothing else in the forest is shown. -/
  only : ∀ other : Forest,
    (∀ id ∈ visited.map Prod.snd, ∀ node, forest.node? id = some node →
      ∃ twin, other.node? id = some twin ∧ twin.Resembles node) →
    other.outlineFrom (some start) = forest.outlineFrom (some start)

namespace Sound

theorem mem_visited_iff (sound : forest.Sound) {start id : NodeId}
    (unfolds : forest.Unfolds (some start) trees) {base : Nat} :
    id ∈ (Rose.preorderAll base trees).map Prod.snd ↔ ReflTransGen forest.Owned id start := by
  constructor
  · intro member
    obtain ⟨first, starts, path⟩ := sound.reaches_of_mem_preorderAll unfolds member
    cases starts
    exact path
  · intro path
    obtain ⟨below, descends⟩ := sound.exists_descends path
    refine List.mem_map.mpr ⟨(base + below, id), ?_, rfl⟩
    exact (sound.mem_preorderAll_iff unfolds).mpr ⟨start, below, rfl, descends, rfl⟩

theorem has_of_reaches (sound : forest.Sound) {start id : NodeId} (present : forest.has start)
    (path : ReflTransGen forest.Owned id start) : forest.has id := by
  obtain rfl | ⟨_, owned, _⟩ := ReflTransGen.cases_head path
  · exact present
  · exact sound.owned_exists owned

/-- What is shown of a chain depends on what its own nodes look like. -/
theorem outlineFrom_congr (sound : forest.Sound) {start : NodeId} (present : forest.has start)
    (twins : ∀ id ∈ (Rose.preorderAll 1 (forest.roses (some start))).map Prod.snd,
      ∀ node, forest.node? id = some node →
        ∃ twin, other.node? id = some twin ∧ twin.Resembles node) :
    other.outlineFrom (some start) = forest.outlineFrom (some start) := by
  have unfolds : forest.Unfolds (some start) (forest.roses (some start)) :=
    sound.unfolds_roses fun id same => Option.some.inj same ▸ present
  have found : ∀ id ∈ (Rose.preorderAll 1 (forest.roses (some start))).map Prod.snd,
      ∃ node, forest.node? id = some node := fun id member =>
    forest.has_iff.mp (sound.has_of_reaches present ((sound.mem_visited_iff unfolds).mp member))
  -- The other forest has all of these nodes too, so its size bounds their number as well.
  have enough : (Rose.preorderAll 1 (forest.roses (some start))).length ≤ other.size := by
    rw [← List.length_map (f := Prod.snd)]
    refine length_le_size (sound.nodup_preorderAll unfolds 1) fun id member => ?_
    obtain ⟨node, here⟩ := found id member
    obtain ⟨twin, there, _⟩ := twins id member node here
    exact other.has_iff.mpr ⟨twin, there⟩
  have same : other.roses (some start) = forest.roses (some start) :=
    rosesWithin_eq (unfolds.transfer twins) enough
  rw [outlineFrom_eq_join, outlineFrom_eq_join, same]
  congr 1
  refine List.map_congr_left fun entry member => ?_
  have visited := List.mem_map_of_mem (f := Prod.snd) member
  obtain ⟨node, here⟩ := found entry.2 visited
  obtain ⟨twin, there, resembles⟩ := twins entry.2 visited node here
  rw [blockOf_of_found here, blockOf_of_found there, resembles.block]

theorem traversal (sound : forest.Sound) {start : NodeId} (present : forest.has start) :
    forest.Traversal start (Rose.preorderAll 1 (forest.roses (some start))) := by
  have unfolds : forest.Unfolds (some start) (forest.roses (some start)) :=
    sound.unfolds_roses fun id same => Option.some.inj same ▸ present
  constructor
  case text => exact forest.outlineFrom_eq_join (some start)
  case once => exact sound.nodup_preorderAll unfolds 1
  case covers => exact fun id => sound.mem_visited_iff unfolds
  case depth =>
    intro depth id
    rw [sound.mem_preorderAll_iff unfolds]
    constructor
    · rintro ⟨first, below, starts, descends, rfl⟩
      cases starts
      exact ⟨below, descends, rfl⟩
    · rintro ⟨below, descends, rfl⟩
      exact ⟨start, below, rfl, descends, rfl⟩
  case block =>
    intro id member
    obtain ⟨node, found⟩ := forest.has_iff.mp
      (sound.has_of_reaches present ((sound.mem_visited_iff unfolds).mp member))
    have headed := node.headed_block
    refine ⟨node, node.block.headline, found, headed, headed.eq_unknown_iff, fun depth => ?_⟩
    rw [blockOf_of_found found, node.text_block]
  case only => exact fun other twins => sound.outlineFrom_congr present twins

end Sound

/-- The outline of a forest is that of the chain from its root on. -/
theorem outline_eq (forest : Forest) :
    forest.outline =
      match forest.root with
      | none => ""
      | some root => forest.outlineFrom (some root) := by
  rw [outline]
  cases forest.root with
  | none =>
    rw [outlineFrom_eq_join, roses]
    cases forest.size <;> rfl
  | some root => rfl

end Forest

namespace Script.Workbench

/-- In every forest that a script builds, a chain unfolds into trees that hold each node under its
start once, and its outline shows their blocks in depth-first order, indented by child links. -/
theorem outline_of_run (status : Status) (steps : List ForestStep) :
    let forest := ((start status).run steps).2.forest
    (∀ start, forest.has start → ∃ trees, forest.Unfolds (some start) trees ∧
      forest.Traversal start (Rose.preorderAll 1 trees)) ∧
    forest.outline =
      match forest.root with
      | none => ""
      | some root => forest.outlineFrom (some root) := by
  intro forest
  have sound : forest.Sound := sound_run .empty steps
  refine ⟨fun start present => ⟨forest.roses (some start), ?_, sound.traversal present⟩,
    forest.outline_eq⟩
  exact sound.unfolds_roses fun id same => Option.some.inj same ▸ present

end Script.Workbench

end FrontEnd
