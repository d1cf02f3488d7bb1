import FrontEnd.Forest.Node

/-! # The syntax forest

All nodes of a forest are kept in the order of their creation and refer to each other by handle.
A program is the chain of nodes that starts at the root. New nodes hold nothing and are held by
nothing.
-/

namespace FrontEnd

/-- Nodes in order of creation, and the start of the top level chain. -/
structure Forest where
  nodes : Array Node
  root : Option NodeId
deriving DecidableEq, Repr

namespace Forest

def empty : Forest :=
  ⟨#[], none⟩

def size (forest : Forest) : Nat :=
  forest.nodes.size

def node? (forest : Forest) (id : NodeId) : Option Node :=
  forest.nodes[id.index]?

def has (forest : Forest) (id : NodeId) : Bool :=
  id.index < forest.size

def owner? (forest : Forest) (id : NodeId) : Option NodeId :=
  (forest.node? id).bind Node.owner

/-- The next node at the same level. -/
def sibling? (forest : Forest) (id : NodeId) : Option NodeId :=
  (forest.node? id).bind Node.sibling

/-- The node in a child slot; there is none in a slot that does not exist. -/
def child? (forest : Forest) (id : NodeId) (slot : Nat) : Option NodeId :=
  (forest.node? id).bind fun node => node.children[slot]?.join

def modify (forest : Forest) (id : NodeId) (change : Node → Node) : Forest :=
  { forest with nodes := forest.nodes.modify id.index change }

/-- Make a node on a line. -/
def add (forest : Forest) (kind : NodeKind) (line : Nat) : NodeId × Forest :=
  (⟨forest.size⟩, { forest with nodes := forest.nodes.push (Node.fresh kind line) })

def setPayload (forest : Forest) (id : NodeId) (payload : Payload) : Forest :=
  forest.modify id fun node => { node with payload }

def setValueType (forest : Forest) (id : NodeId) (valueType : ValueType) : Forest :=
  forest.modify id fun node => { node with valueType }

def setValueTypes (forest : Forest) (valueType : ValueType) : Forest :=
  { forest with nodes := forest.nodes.map fun node => { node with valueType } }

@[simp] theorem node?_empty (id : NodeId) : empty.node? id = none := rfl

@[simp] theorem size_modify (forest : Forest) (id : NodeId) (change : Node → Node) :
    (forest.modify id change).size = forest.size :=
  Array.size_modify

@[simp] theorem root_modify (forest : Forest) (id : NodeId) (change : Node → Node) :
    (forest.modify id change).root = forest.root := rfl

/-- A change reaches one node only. -/
theorem node?_modify (forest : Forest) (id other : NodeId) (change : Node → Node) :
    (forest.modify id change).node? other =
      if other = id then (forest.node? other).map change else forest.node? other := by
  have same : id.index = other.index ↔ other = id := by
    cases id; cases other; simp [eq_comm]
  simp only [modify, node?, Array.getElem?_modify, same]

@[simp] theorem size_add (forest : Forest) (kind : NodeKind) (line : Nat) :
    (forest.add kind line).2.size = forest.size + 1 :=
  Array.size_push ..

/-- Making a node leaves the others as they were. -/
theorem node?_add (forest : Forest) (kind : NodeKind) (line : Nat) (other : NodeId) :
    (forest.add kind line).2.node? other =
      if other = ⟨forest.size⟩ then some (Node.fresh kind line) else forest.node? other := by
  have same : other.index = forest.nodes.size ↔ other = ⟨forest.size⟩ := by
    cases other; simp [size]
  simp only [add, node?, Array.getElem?_push]
  by_cases equal : other = ⟨forest.size⟩
  · rw [if_pos (same.mpr equal), if_pos equal]
  · rw [if_neg (mt same.mp equal), if_neg equal]

end FrontEnd.Forest
