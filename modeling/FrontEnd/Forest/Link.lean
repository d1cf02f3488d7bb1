import FrontEnd.Forest.Basic

/-! # Links between nodes

Every link is an ownership: a node is held in one place at most, and never below itself. So a
link is refused when the target is held already, is the root, or is the topmost owner above the
place where it would be put. A link that is there already is accepted and changes nothing.
-/

namespace FrontEnd

/-- A place where a forest can hold a node. -/
structure Place where
  holder : NodeId
  side : Side
deriving DecidableEq, Repr

/-- Why a link is refused. -/
inductive LinkError where
  | slotOutOfRange (slot : Nat)
  /-- The node is a child, a next node or the root already. -/
  | alreadyOwned (node : NodeId)
  /-- The node is the place's holder or an owner above it. -/
  | cycle (node : NodeId)
  | unknown (node : NodeId)
deriving DecidableEq, Repr

def LinkError.message : LinkError → String
  | slotOutOfRange slot =>
    "child slot " ++ toString slot ++ " does not exist, nodes have " ++ toString slotCount ++
      " children"
  | alreadyOwned node => "node " ++ node.text ++ " is already linked into the forest"
  | cycle node => "linking node " ++ node.text ++ " would create a cycle"
  | unknown node => "node " ++ node.text ++ " does not exist"

namespace Forest

/-- Follow links from a node for a number of steps at most. -/
def follow (next : NodeId → Option NodeId) : Nat → Option NodeId → List NodeId
  | 0, _ => []
  | _, none => []
  | steps + 1, some id => id :: follow next steps (next id)

/-- A node and the owners above it; in a forest of `n` nodes there are `n` of them at most. -/
def lineage (forest : Forest) (id : NodeId) : List NodeId :=
  follow forest.owner? forest.size (some id)

/-- The chain of nodes at one level from a node on. -/
def chain (forest : Forest) (start : Option NodeId) : List NodeId :=
  follow forest.sibling? forest.size start

def link? (forest : Forest) (place : Place) : Option NodeId :=
  (forest.node? place.holder).bind fun node => node.link place.side

/-- Why a node must not be put below a holder. -/
def refusal? (forest : Forest) (holder target : NodeId) : Option LinkError :=
  if (forest.owner? target).isSome || forest.root == some target then
    some (.alreadyOwned target)
  else if target ∈ forest.lineage holder then some (.cycle target)
  else none

def setOwner (forest : Forest) (id : NodeId) (owner : Option NodeId) : Forest :=
  forest.modify id fun node => { node with owner }

/-- Put a node in a place, whose former node is set free. -/
def occupy (forest : Forest) (place : Place) (target : NodeId) : Forest :=
  let held := forest.modify place.holder fun node => node.hold place.side target
  let freed :=
    match forest.link? place with
    | none => held
    | some former => held.setOwner former none
  freed.setOwner target (some place.holder)

/-- Put a node in a place, yielding the node that was there before. -/
def attach (forest : Forest) (place : Place) (target : NodeId) :
    Except LinkError (Option NodeId × Forest) :=
  if !forest.has place.holder then .error (.unknown place.holder)
  else if !forest.has target then .error (.unknown target)
  else if forest.link? place = some target then .ok (none, forest)
  else
    match forest.refusal? place.holder target with
    | some refusal => .error refusal
    | none => .ok (forest.link? place, forest.occupy place target)

def attachChild (forest : Forest) (parent : NodeId) (slot : Nat) (child : NodeId) :
    Except LinkError (Option NodeId × Forest) :=
  if inRange : slot < slotCount then forest.attach ⟨parent, .child ⟨slot, inRange⟩⟩ child
  else .error (.slotOutOfRange slot)

/-- Put a node after another one. -/
def attachNext (forest : Forest) (node next : NodeId) :
    Except LinkError (Option NodeId × Forest) :=
  forest.attach ⟨node, .next⟩ next

def append (forest : Forest) (head node : NodeId) : Except LinkError Forest :=
  (forest.attachNext ((forest.chain (some head)).getLastD head) node).map Prod.snd

/-- Start the top level chain at a node that nothing holds. -/
def makeRoot (forest : Forest) (node : NodeId) : Except LinkError Forest :=
  if !forest.has node then .error (.unknown node)
  else if forest.root = some node then .ok forest
  else if (forest.owner? node).isSome then .error (.alreadyOwned node)
  else .ok { forest with root := some node }

end FrontEnd.Forest
