import FrontEnd.Proofs.Forest.Walk

/-! # Ownership in a forest

A forest shows four things: which handles have nodes, what each place holds, who owns a node and
where the top level chain starts. `Sound` is what every operation keeps of them. Owners and places
agree, no node is held twice, the start of the chain has no owner, and the owners above a node come
to an end. Each operation is first described by what it does to the four, and `Sound` follows.
-/

namespace FrontEnd.Forest

open Relation

/-! ### What the operations change -/

section Lookup

variable (forest : Forest)

theorem has_iff {id : NodeId} : forest.has id ↔ ∃ node, forest.node? id = some node := by
  rw [has, decide_eq_true_eq, size]
  constructor
  · intro bound
    exact ⟨_, Array.getElem?_eq_getElem bound⟩
  · rintro ⟨node, found⟩
    exact (Array.getElem?_eq_some_iff.mp found).1

/-- Forests are the same if their nodes and their roots are. -/
theorem eq_of_node? {forest other : Forest} (nodes : ∀ id, forest.node? id = other.node? id)
    (root : forest.root = other.root) : forest = other := by
  obtain ⟨held, start⟩ := forest
  obtain ⟨otherHeld, otherStart⟩ := other
  have same : held = otherHeld := Array.ext_getElem? fun index => nodes ⟨index⟩
  exact congrArg₂ Forest.mk same root

theorem has_of_link? {forest : Forest} {place : Place} {target : NodeId}
    (held : forest.link? place = some target) : forest.has place.holder := by
  obtain ⟨node, found, _⟩ := Option.bind_eq_some_iff.mp held
  exact forest.has_iff.mpr ⟨node, found⟩

@[simp] theorem has_modify (id other : NodeId) (change : Node → Node) :
    (forest.modify id change).has other = forest.has other := by
  simp only [has, size_modify]

/-- A change that keeps the owner of a node keeps all owners. -/
theorem owner?_modify (id other : NodeId) {change : Node → Node}
    (keeps : ∀ node, (change node).owner = node.owner) :
    (forest.modify id change).owner? other = forest.owner? other := by
  simp only [owner?, node?_modify]
  split
  · rw [Option.bind_map]
    exact congrArg _ (funext keeps)
  · rfl

/-- A change that keeps what a node holds keeps all links. -/
theorem link?_modify (id : NodeId) (place : Place) {change : Node → Node}
    (keeps : ∀ node side, (change node).link side = node.link side) :
    (forest.modify id change).link? place = forest.link? place := by
  simp only [link?, node?_modify]
  split
  · rw [Option.bind_map]
    exact congrArg _ (funext fun node => keeps node _)
  · rfl

@[simp] theorem has_setOwner (id other : NodeId) (owner : Option NodeId) :
    (forest.setOwner id owner).has other = forest.has other :=
  forest.has_modify ..

@[simp] theorem link?_setOwner (id : NodeId) (owner : Option NodeId) (place : Place) :
    (forest.setOwner id owner).link? place = forest.link? place :=
  forest.link?_modify id place fun _ side => by cases side <;> rfl

theorem owner?_setOwner (id other : NodeId) (owner : Option NodeId) :
    (forest.setOwner id owner).owner? other =
      if other = id ∧ forest.has id then owner else forest.owner? other := by
  simp only [setOwner, owner?, node?_modify]
  by_cases same : other = id
  · subst same
    cases found : forest.node? other with
    | none =>
      have absent : ¬ forest.has other := by simp [has_iff, found]
      simp [absent]
    | some node =>
      have present : forest.has other := forest.has_iff.mpr ⟨node, found⟩
      simp [present]
  · simp [same]

/-- A node without an owner is no different when its owner is taken away. -/
theorem owner?_setOwner_none (id other : NodeId) :
    (forest.setOwner id none).owner? other = if other = id then none else forest.owner? other := by
  rw [owner?_setOwner]
  by_cases same : other = id
  · subst same
    by_cases present : forest.has other
    · simp [present]
    · have absent : forest.node? other = none := by
        simpa [has_iff, Option.eq_none_iff_forall_ne_some] using present
      simp [present, owner?, absent]
  · simp [same]

@[simp] theorem has_add (kind : NodeKind) (line : Nat) (id : NodeId) :
    (forest.add kind line).2.has id = (forest.has id || id == ⟨forest.size⟩) := by
  cases id
  rw [Bool.eq_iff_iff]
  simp only [has, size_add, Bool.or_eq_true, decide_eq_true_eq, beq_iff_eq, NodeId.mk.injEq]
  omega

/-- A new node has no owner, like a handle without a node. -/
@[simp] theorem owner?_add (kind : NodeKind) (line : Nat) (id : NodeId) :
    (forest.add kind line).2.owner? id = forest.owner? id := by
  simp only [owner?, node?_add]
  split
  · next fresh => subst fresh; simp [node?, size, Node.fresh]
  · rfl

/-- A new node holds nothing, like a handle without a node. -/
@[simp] theorem link?_add (kind : NodeKind) (line : Nat) (place : Place) :
    (forest.add kind line).2.link? place = forest.link? place := by
  simp only [link?, node?_add]
  split
  · next fresh => simp [fresh, node?, size]
  · rfl

variable (place : Place) (target : NodeId)

@[simp] theorem has_occupy (id : NodeId) : (forest.occupy place target).has id = forest.has id := by
  unfold occupy
  cases forest.link? place <;> simp

@[simp] theorem root_occupy : (forest.occupy place target).root = forest.root := by
  unfold occupy
  cases forest.link? place <;> rfl

/-- Only the place itself holds another node. -/
theorem link?_occupy (holder : forest.has place.holder) (other : Place) :
    (forest.occupy place target).link? other =
      if other = place then some target else forest.link? other := by
  have held : (forest.modify place.holder fun node => node.hold place.side target).link? other =
      if other = place then some target else forest.link? other := by
    obtain ⟨node, found⟩ := forest.has_iff.mp holder
    obtain ⟨place, side⟩ := place
    obtain ⟨other, otherSide⟩ := other
    simp only [link?, node?_modify, Place.mk.injEq]
    by_cases same : other = place
    · subst same
      simp [found, Node.link_hold]
    · simp [same]
  unfold occupy
  cases forest.link? place <;> simpa using held

/-- The node in a place is owned by its holder, and the node that was there by none. -/
theorem owner?_occupy (present : forest.has target) (other : NodeId) :
    (forest.occupy place target).owner? other =
      if other = target then some place.holder
      else if forest.link? place = some other then none else forest.owner? other := by
  have held (id : NodeId) : (forest.modify place.holder fun node => node.hold place.side target).owner? id =
      forest.owner? id :=
    forest.owner?_modify _ _ fun node => node.owner_hold _ _
  unfold occupy
  cases forest.link? place with
  | none => simp [owner?_setOwner, present, held]
  | some former =>
    rw [owner?_setOwner, owner?_setOwner_none, held]
    simp only [has_setOwner, has_modify, present, and_true, Option.some.injEq, eq_comm]

/-- A node once a place holds a target: its holder has the target there, the target is owned by the
holder, and the node that was there before is owned by none. -/
def relinked (id : NodeId) (node : Node) : Node :=
  let held := if id = place.holder then node.hold place.side target else node
  if id = target then { held with owner := some place.holder }
  else if forest.link? place = some id then { held with owner := none }
  else held

/-- A change reaches one node only. -/
theorem node?_modify_eq_map (id other : NodeId) (change : Node → Node) :
    (forest.modify id change).node? other =
      (forest.node? other).map fun node => if other = id then change node else node := by
  rw [node?_modify]
  split <;> simp

/-- Nothing but the place, the owner of its node and the owner of its former node is changed. -/
theorem node?_occupy (id : NodeId) :
    (forest.occupy place target).node? id = (forest.node? id).map (forest.relinked place target id) := by
  unfold occupy
  cases held : forest.link? place with
  | none =>
    simp only [setOwner, node?_modify_eq_map, Option.map_map]
    refine congrArg (Option.map · _) (funext fun node => ?_)
    simp only [Function.comp_apply, relinked, held, reduceCtorEq, ↓reduceIte]
  | some former =>
    simp only [setOwner, node?_modify_eq_map, Option.map_map]
    refine congrArg (Option.map · _) (funext fun node => ?_)
    have same : former = id ↔ id = former := eq_comm
    simp only [Function.comp_apply, relinked, held, Option.some.injEq, same]
    split_ifs <;> rfl

end Lookup

/-! ### The invariant -/

/-- The owner of each node is the node that holds it. -/
abbrev Owned (forest : Forest) : NodeId → NodeId → Prop :=
  Leads forest.owner?

theorem owned_iff {forest : Forest} {target holder : NodeId} :
    forest.Owned target holder ↔ forest.owner? target = some holder := Iff.rfl

/-- What every operation keeps. -/
structure Sound (forest : Forest) : Prop where
  owner_iff : ∀ {holder target}, forest.owner? target = some holder ↔
    ∃ side, forest.link? ⟨holder, side⟩ = some target
  /-- No node is held in two places. -/
  place_unique : ∀ {first second target}, forest.link? first = some target →
    forest.link? second = some target → first = second
  target_exists : ∀ {place target}, forest.link? place = some target → forest.has target
  root_exists : ∀ {id}, forest.root = some id → forest.has id
  root_free : ∀ {id}, forest.root = some id → forest.owner? id = none
  grounded : WellFounded fun holder target => forest.Owned target holder

namespace Sound

variable {forest : Forest}

theorem owner_exists (sound : forest.Sound) {holder target : NodeId}
    (owned : forest.owner? target = some holder) : forest.has holder := by
  obtain ⟨side, held⟩ := sound.owner_iff.mp owned
  exact has_of_link? held

/-- The owners above a node come to an end. -/
theorem owners_end (sound : forest.Sound) : forest.Ends forest.owner? where
  grounded := sound.grounded
  stays := sound.owner_exists

/-- The lineage of a node is the node and all owners above it. -/
theorem mem_lineage_iff (sound : forest.Sound) {id above : NodeId} (present : forest.has id) :
    above ∈ forest.lineage id ↔ ReflTransGen forest.Owned id above :=
  sound.owners_end.mem_follow_iff present

/-- Following owners from a node ends at a node that none owns. -/
theorem exists_top (sound : forest.Sound) {id : NodeId} (present : forest.has id) :
    ∃ top, forest.has top ∧ ReflTransGen forest.Owned id top ∧ forest.owner? top = none := by
  obtain ⟨top, path, free⟩ := sound.owners_end.exists_last id
  refine ⟨top, ?_, path, free⟩
  obtain rfl | ⟨_, _, link⟩ := (ReflTransGen.cases_tail_iff _ _ _).mp path
  · exact present
  · exact sound.owner_exists link

/-- No node is held, however far below, by itself. -/
theorem not_below_itself (sound : forest.Sound) (id : NodeId) :
    ¬ TransGen (fun holder target => ∃ side, forest.link? ⟨holder, side⟩ = some target) id id := by
  intro circle
  have owners : TransGen (Function.swap forest.Owned) id id :=
    TransGen.mono (fun _ _ held => sound.owner_iff.mpr held) _ _ circle
  exact sound.owners_end.not_circular id (transGen_swap.mp owners)

/-- A node that is owned by none is held nowhere. -/
theorem link?_ne_of_free (sound : forest.Sound) {target : NodeId}
    (free : forest.owner? target = none) (place : Place) : forest.link? place ≠ some target := by
  intro held
  have owned : forest.owner? target = some place.holder := sound.owner_iff.mpr ⟨place.side, held⟩
  rw [free] at owned
  cases owned

end Sound

end FrontEnd.Forest
