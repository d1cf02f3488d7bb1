import FrontEnd.Token.Kind

/-! # Syntax nodes

A node has a kind, the line it was made on, three child slots, a next node at its own level, and
the payload that a parser and a type checker give it. It also records the node that holds it.
-/

namespace FrontEnd

/-- The handle of a node: its place in the order of creation, counted from zero. -/
structure NodeId where
  index : Nat
deriving DecidableEq, Repr

/-- Handles are shown counted from one. -/
def NodeId.text (node : NodeId) : String :=
  "#" ++ toString (node.index + 1)

inductive StatementKind where
  | ifElse
  | whileLoop
  | returnValue
  | compound
deriving DecidableEq, Repr

inductive ExpressionKind where
  | operation
  | assignment
  | constant
  | reference
  | arrayElement
  | call
deriving DecidableEq, Repr

inductive DeclarationKind where
  | function
  | scalar
  | array
  | parameter
  | arrayParameter
deriving DecidableEq, Repr

/-- The kind of a node, fixed when the node is made. -/
inductive NodeKind where
  | statement (kind : StatementKind)
  | expression (kind : ExpressionKind)
  | declaration (kind : DeclarationKind)
  /-- The name of a primitive type. -/
  | typeName
deriving DecidableEq, Repr

/-- The payload of a node; which one fits depends on the kind of the node. -/
inductive Payload where
  | empty
  | name (name : String)
  | value (value : Int)
  | operator (kind : Token.Kind)
  /-- The token that names a primitive type. -/
  | primitive (kind : Token.Kind)
  /-- An array and its declared size, which is negative when none is given. -/
  | array (name : String) (size : Int)
deriving DecidableEq, Repr

namespace Payload

def unsizedArray (name : String) : Payload :=
  .array name (-1)

/-- A size is given when it is not negative. -/
def isSize (size : Int) : Bool :=
  0 ≤ size

/-- The identifier in a payload. -/
def name? : Payload → Option String
  | .name text | .array text _ => some text
  | _ => none

end Payload

inductive ValueType where
  | void
  | integer
deriving DecidableEq, Repr

def ValueType.text : ValueType → String
  | void => "Void"
  | integer => "Integer"

abbrev slotCount : Nat := 3

/-- Where a node can hold another one. -/
inductive Side where
  | child (slot : Fin slotCount)
  /-- The next node at the same level. -/
  | next
deriving DecidableEq, Repr

/-- A node of the syntax forest. -/
structure Node where
  kind : NodeKind
  line : Nat
  children : Vector (Option NodeId) slotCount
  sibling : Option NodeId
  /-- The node that holds this one, as a child or as its next node. -/
  owner : Option NodeId
  payload : Payload
  valueType : ValueType
deriving DecidableEq, Repr

namespace Node

/-- A node that holds nothing, is held by nothing and has no payload. -/
def fresh (kind : NodeKind) (line : Nat) : Node where
  kind
  line
  children := Vector.replicate slotCount none
  sibling := none
  owner := none
  payload := .empty
  valueType := .void

/-- What a node holds on a side. -/
def link (node : Node) : Side → Option NodeId
  | .child slot => node.children[slot]
  | .next => node.sibling

def hold (node : Node) (side : Side) (target : NodeId) : Node :=
  match side with
  | .child slot => { node with children := node.children.set slot (some target) }
  | .next => { node with sibling := some target }

@[simp] theorem link_fresh (kind : NodeKind) (line : Nat) (side : Side) :
    (fresh kind line).link side = none := by
  cases side <;> simp [link, fresh]

/-- Holding a node changes one side and no other. -/
theorem link_hold (node : Node) (side other : Side) (target : NodeId) :
    (node.hold side target).link other =
      if other = side then some target else node.link other := by
  cases side <;> cases other <;>
    simp [hold, link, Vector.getElem_set, Fin.ext_iff, eq_comm]

@[simp] theorem owner_hold (node : Node) (side : Side) (target : NodeId) :
    (node.hold side target).owner = node.owner := by
  cases side <;> rfl

end FrontEnd.Node
