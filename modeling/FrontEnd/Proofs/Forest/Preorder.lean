import FrontEnd.Forest.Rose
import Mathlib.Data.List.TakeWhile

/-! # Depth-first order

A list of rose trees is taken apart at its first tree: a value, the branches below it and the trees
behind it. The depths in depth-first order tell where the branches end, so a list of trees can be
recovered from its values with their depths.
-/

namespace FrontEnd.Rose

variable {α β : Type}

/-- Induction on a list of trees: below the first value, and behind the first tree. -/
@[elab_as_elim]
theorem trees_induction {motive : List (Rose α) → Prop} (nil : motive [])
    (cons : ∀ value branches rest, motive branches → motive rest →
      motive (node value branches :: rest)) : ∀ trees, motive trees
  | [] => nil
  | node value branches :: rest =>
    cons value branches rest (trees_induction nil cons branches) (trees_induction nil cons rest)

@[simp] theorem preorderAll_nil (depth : Nat) : preorderAll depth ([] : List (Rose α)) = [] := rfl

@[simp] theorem preorderAll_cons (depth : Nat) (value : α) (branches rest : List (Rose α)) :
    preorderAll depth (node value branches :: rest) =
      (depth, value) :: (preorderAll (depth + 1) branches ++ preorderAll depth rest) := rfl

theorem preorderAll_flatMap (depth : Nat) (indices : List β) (trees : β → List (Rose α)) :
    preorderAll depth (indices.flatMap trees) =
      indices.flatMap fun index => preorderAll depth (trees index) := by
  simp only [preorderAll_eq_flatMap, List.flatMap_assoc]

/-- Changing the values of trees changes them where they stand. -/
theorem preorderAll_mapAll (change : α → β) (depth : Nat) (trees : List (Rose α)) :
    preorderAll depth (mapAll change trees) =
      (preorderAll depth trees).map fun entry => (entry.1, change entry.2) := by
  induction trees using trees_induction generalizing depth with
  | nil => rfl
  | cons value branches rest below behind =>
    simp only [mapAll, map, preorderAll_cons, below, behind, List.map_cons, List.map_append]

/-- Every value of trees stands at their depth or deeper. -/
theorem le_of_mem_preorderAll {depth : Nat} {trees : List (Rose α)} {entry : Nat × α}
    (member : entry ∈ preorderAll depth trees) : depth ≤ entry.1 := by
  induction trees using trees_induction generalizing depth with
  | nil => cases member
  | cons value branches rest below behind =>
    rw [preorderAll_cons, List.mem_cons, List.mem_append] at member
    obtain rfl | member | member := member
    · exact Nat.le_refl depth
    · exact Nat.le_of_succ_le (below member)
    · exact behind member

/-- The trees of values with their depths: what is deeper than a value, directly behind it, is below
it. -/
def ofPreorder : List (Nat × α) → List (Rose α)
  | [] => []
  | (depth, value) :: later =>
    node value (ofPreorder (later.takeWhile fun entry => depth < entry.1)) ::
      ofPreorder (later.dropWhile fun entry => depth < entry.1)
termination_by entries => entries.length
decreasing_by
  · exact Nat.lt_succ_of_le (List.takeWhile_sublist _).length_le
  · exact Nat.lt_succ_of_le (List.dropWhile_sublist _).length_le

/-- The depths in depth-first order tell the shape of the trees. -/
theorem ofPreorder_preorderAll (depth : Nat) (trees : List (Rose α)) :
    ofPreorder (preorderAll depth trees) = trees := by
  induction trees using trees_induction generalizing depth with
  | nil => rw [preorderAll_nil, ofPreorder]
  | cons value branches rest below behind =>
    have deeper : ∀ entry ∈ preorderAll (depth + 1) branches, decide (depth < entry.1) = true :=
      fun entry member => decide_eq_true (le_of_mem_preorderAll member)
    have stops : ((preorderAll depth rest).takeWhile fun entry => depth < entry.1) = [] ∧
        ((preorderAll depth rest).dropWhile fun entry => depth < entry.1) = preorderAll depth rest := by
      cases rest with
      | nil => exact ⟨rfl, rfl⟩
      | cons tree later =>
        cases tree
        simp
    rw [preorderAll_cons, ofPreorder, List.takeWhile_append_of_pos deeper,
      List.dropWhile_append_of_pos deeper, stops.1, stops.2, List.append_nil, below, behind]

end FrontEnd.Rose
