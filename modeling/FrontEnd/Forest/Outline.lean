import FrontEnd.Forest.Rose
import FrontEnd.Text.Column

/-! # The outline of a forest

A forest is shown as an indented outline. Each node has a block of its own: a headline, and for an
operation with its operator a detail one level deeper. A node whose payload does not fit its kind
has a headline that says so, and its branches are shown like any other's.
-/

namespace FrontEnd

/-- The part of an outline that one node takes up. -/
structure Block where
  headline : String
  /-- A line that belongs to the node but is indented as its children are. -/
  detail : Option String
deriving DecidableEq, Repr

namespace Block

/-- The spaces for each level of depth. -/
def indent : Nat := 2

def lineAt (depth : Nat) (content : String) : String :=
  Text.blanks (indent * depth) ++ content ++ "\n"

def text (block : Block) (depth : Nat) : String :=
  lineAt depth block.headline ++ (block.detail.map (lineAt (depth + 1))).getD ""

end Block

def StatementKind.headline : StatementKind → String
  | ifElse => "If"
  | whileLoop => "While"
  | returnValue => "Return"
  | compound => "Compound Statement"

def ExpressionKind.block : ExpressionKind → Payload → Block
  | operation, .operator kind => ⟨"Simple Expression", some ("Operator : " ++ kind.operatorText)⟩
  | constant, .value value => ⟨"Constant : " ++ toString value, none⟩
  | reference, .name name => ⟨"Variable : " ++ name, none⟩
  | arrayElement, .name name | arrayElement, .array name _ => ⟨"Array ID : " ++ name, none⟩
  | call, .name name => ⟨"Call to " ++ name, none⟩
  | assignment, _ => ⟨"Assign : =", none⟩
  | _, _ => ⟨"Unknown ExpNode kind", none⟩

/-- The headline of a declaration with a payload; parameters have none of their own. -/
def DeclarationKind.headline : DeclarationKind → Payload → String
  | function, .name name => "Function Declare : " ++ name
  | scalar, .name name => "Variable Declare : " ++ name
  | array, .array name size =>
    if Payload.isSize size then
      "Array Variable Allocate : " ++ name ++ " of size " ++ toString size
    else "Array Variable Declare : " ++ name
  | _, _ => "Unknown Declaration Node Kind"

def Payload.typeHeadline : Payload → String
  | .primitive .intWord => "Type : int"
  | .primitive .voidWord => "Type : void"
  | .primitive _ => "Type : Unknown Variable Type"
  | _ => "Unknown Type Node Kind"

def Node.block (node : Node) : Block :=
  match node.kind with
  | .statement kind => ⟨kind.headline, none⟩
  | .expression kind => kind.block node.payload
  | .declaration kind => ⟨kind.headline node.payload, none⟩
  | .typeName => ⟨node.payload.typeHeadline, none⟩

namespace Rose

mutual

/-- The outline of a tree whose value stands at a depth. -/
def outline (depth : Nat) : Rose Block → String
  | node block branches => block.text depth ++ outlineAll (depth + 1) branches

def outlineAll (depth : Nat) : List (Rose Block) → String
  | [] => ""
  | tree :: rest => outline depth tree ++ outlineAll depth rest

end

/-- The outline of two lists of trees is that of the first and then that of the second. -/
theorem outlineAll_append (depth : Nat) (first second : List (Rose Block)) :
    outlineAll depth (first ++ second) = outlineAll depth first ++ outlineAll depth second := by
  induction first with
  | nil => simp [outlineAll]
  | cons tree rest ih => simp [outlineAll, ih, String.append_assoc]

end Rose

namespace Forest

def blockOf (forest : Forest) (id : NodeId) : Block :=
  ((forest.node? id).map Node.block).getD ⟨"", none⟩

/-- The blocks of a chain, as rose trees. -/
def blocks (forest : Forest) (start : Option NodeId) : List (Rose Block) :=
  Rose.mapAll forest.blockOf (forest.roses start)

/-- The outline of the chain from a node on. -/
def outlineFrom (forest : Forest) (start : Option NodeId) : String :=
  Rose.outlineAll 1 (forest.blocks start)

def outline (forest : Forest) : String :=
  forest.outlineFrom forest.root

end FrontEnd.Forest
