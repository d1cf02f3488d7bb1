import FrontEnd.Forest.Basic

/-! # Chains as rose trees

A chain of nodes is read as a list of rose trees: one tree for each node of the chain, whose
branches are the trees of the chains in its child slots, first slot first. Depth-first order
lists a tree's value before its branches.
-/

namespace FrontEnd

/-- A value with branches. -/
inductive Rose (α : Type) where
  | node (value : α) (branches : List (Rose α))
deriving Repr

namespace Rose

variable {α β : Type}

mutual

/-- Change the values of a tree and keep its shape. -/
def map (change : α → β) : Rose α → Rose β
  | node value branches => node (change value) (mapAll change branches)

def mapAll (change : α → β) : List (Rose α) → List (Rose β)
  | [] => []
  | tree :: rest => map change tree :: mapAll change rest

end

mutual

/-- The values of a tree in depth-first order, each with its depth. -/
def preorder (depth : Nat) : Rose α → List (Nat × α)
  | node value branches => (depth, value) :: preorderAll (depth + 1) branches

def preorderAll (depth : Nat) : List (Rose α) → List (Nat × α)
  | [] => []
  | tree :: rest => preorder depth tree ++ preorderAll depth rest

end

/-- Changing several trees changes each of them. -/
theorem mapAll_eq_map (change : α → β) (trees : List (Rose α)) :
    mapAll change trees = trees.map (map change) := by
  induction trees with
  | nil => rfl
  | cons tree rest ih => rw [mapAll, ih, List.map_cons]

/-- Depth-first order goes through several trees one after the other. -/
theorem preorderAll_eq_flatMap (depth : Nat) (trees : List (Rose α)) :
    preorderAll depth trees = trees.flatMap (preorder depth) := by
  induction trees with
  | nil => rfl
  | cons tree rest ih => rw [preorderAll, ih, List.flatMap_cons]

end Rose

namespace Forest

/-- The rose trees of a chain, as deep as a number of steps reaches. -/
def rosesWithin (forest : Forest) : Nat → Option NodeId → List (Rose NodeId)
  | 0, _ => []
  | _, none => []
  | steps + 1, some id =>
    match forest.node? id with
    | none => []
    | some node =>
      .node id (node.children.toList.flatMap (rosesWithin forest steps)) ::
        rosesWithin forest steps node.sibling

/-- The rose trees of a chain; a walk along links of a forest of `n` nodes has `n` steps at most. -/
def roses (forest : Forest) (start : Option NodeId) : List (Rose NodeId) :=
  forest.rosesWithin forest.size start

end FrontEnd.Forest
