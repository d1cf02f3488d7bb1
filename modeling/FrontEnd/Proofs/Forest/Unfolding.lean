import FrontEnd.Proofs.Forest.Ownership
import FrontEnd.Proofs.Forest.Preorder
import Mathlib.Data.List.FinRange

/-! # Chains unfolded

`Unfolds` says what rose trees a chain of nodes unfolds into, without a bound on their depth. In a
sound forest each chain unfolds. In depth-first order the trees hold the nodes whose owners lead to
the start, each once, at the depth that the child links on the way add up to. So the trees are no
larger than the forest, and unfolding in as many steps as there are nodes yields all of them.
-/

namespace FrontEnd

/-- The levels between a node and what it holds on a side: a next node stands beside it. -/
def Side.levels : Side → Nat
  | .child _ => 1
  | .next => 0

namespace Forest

open Relation

variable {forest : Forest}

/-! ### Descending from a node -/

/-- A node under a start, and the number of child links on the way there. -/
inductive Descends (forest : Forest) (start : NodeId) : NodeId → Nat → Prop
  | start : Descends forest start start 0
  | step {holder id : NodeId} {depth : Nat} (side : Side) (above : Descends forest start holder depth)
      (owned : forest.owner? id = some holder) (held : forest.link? ⟨holder, side⟩ = some id) :
      Descends forest start id (depth + side.levels)

theorem Descends.reaches {start id : NodeId} {depth : Nat}
    (descends : forest.Descends start id depth) : ReflTransGen forest.Owned id start := by
  induction descends with
  | start => exact .refl
  | step _ _ owned _ ih => exact .head owned ih

namespace Sound

theorem exists_descends (sound : forest.Sound) {start id : NodeId}
    (path : ReflTransGen forest.Owned id start) : ∃ depth, forest.Descends start id depth := by
  induction path using ReflTransGen.head_induction_on with
  | refl => exact ⟨0, .start⟩
  | head owned _ ih =>
    obtain ⟨depth, above⟩ := ih
    obtain ⟨side, held⟩ := sound.owner_iff.mp owned
    exact ⟨_, .step side above owned held⟩

/-- What is under a node is under one that it holds. -/
theorem descends_of_held (sound : forest.Sound) {start target id : NodeId} {side : Side}
    {depth : Nat} (held : forest.link? ⟨start, side⟩ = some target)
    (descends : forest.Descends target id depth) :
    forest.Descends start id (side.levels + depth) := by
  induction descends with
  | start =>
    rw [Nat.add_comm]
    exact .step side .start (sound.owner_iff.mpr ⟨side, held⟩) held
  | step other _ owned within ih =>
    rw [← Nat.add_assoc]
    exact .step other ih owned within

end Sound

theorem Descends.cases_first {start id : NodeId} {depth : Nat}
    (descends : forest.Descends start id depth) :
    (id = start ∧ depth = 0) ∨
      ∃ side target below, forest.link? ⟨start, side⟩ = some target ∧
        forest.Descends target id below ∧ depth = side.levels + below := by
  induction descends with
  | start => exact .inl ⟨rfl, rfl⟩
  | @step holder id depth side above owned held ih =>
    refine .inr ?_
    obtain ⟨rfl, rfl⟩ | ⟨first, target, below, taken, further, rfl⟩ := ih
    · exact ⟨side, id, 0, held, .start, Nat.add_comm ..⟩
    · exact ⟨first, target, _, taken, .step side further owned held, Nat.add_assoc ..⟩

/-! ### Unfolding a chain -/

/-- The rose trees of a chain: that of its first node, with the trees of the chains in the child
slots as branches, and then those of the chain behind it. -/
inductive Unfolds (forest : Forest) : Option NodeId → List (Rose NodeId) → Prop
  | nil : Unfolds forest none []
  | cons {id : NodeId} {node : Node} {branches : Fin slotCount → List (Rose NodeId)}
      {rest : List (Rose NodeId)} (found : forest.node? id = some node)
      (below : ∀ slot, Unfolds forest (node.link (.child slot)) (branches slot))
      (behind : Unfolds forest (node.link .next) rest) :
      Unfolds forest (some id) (.node id ((List.finRange slotCount).flatMap branches) :: rest)

theorem link?_of_found {id : NodeId} {node : Node} (found : forest.node? id = some node)
    (side : Side) : forest.link? ⟨id, side⟩ = node.link side := by
  rw [link?, found, Option.bind_some]

namespace Sound

theorem owned_exists (sound : forest.Sound) {target holder : NodeId}
    (owned : forest.Owned target holder) : forest.has target := by
  obtain ⟨_, held⟩ := sound.owner_iff.mp owned
  exact sound.target_exists held

/-- A held node has one owner more above it than its holder has. -/
theorem length_lineage_lt (sound : forest.Sound) {target holder : NodeId}
    (owned : forest.Owned target holder) :
    (forest.lineage holder).length < (forest.lineage target).length := by
  have longer : follow forest.owner? (forest.size + 1) (some target) =
      target :: forest.lineage holder := by
    rw [follow, show forest.owner? target = some holder from owned]
    rfl
  have whole : forest.lineage target = target :: forest.lineage holder := by
    rw [lineage, follow_eq_take forest.size 1, ← longer, List.take_of_length_le]
    exact sound.owners_end.length_follow_le (sound.owned_exists owned) _
  rw [whole]
  exact Nat.lt_succ_self _

/-- Going from holders to what they hold comes to an end too. -/
theorem descending (sound : forest.Sound) :
    WellFounded fun target holder => forest.Owned target holder := by
  refine Subrelation.wf (r := InvImage (· < ·) fun id => forest.size - (forest.lineage id).length)
    (fun {target holder} owned => ?_) (InvImage.wf _ wellFounded_lt)
  have longer := sound.length_lineage_lt owned
  have bounded : (forest.lineage target).length ≤ forest.size :=
    sound.owners_end.length_follow_le (sound.owned_exists owned) _
  change forest.size - _ < forest.size - _
  omega

/-- Every chain of a sound forest unfolds. -/
theorem exists_unfolds (sound : forest.Sound) {start : Option NodeId}
    (present : ∀ id, start = some id → forest.has id) : ∃ trees, forest.Unfolds start trees := by
  cases start with
  | none => exact ⟨[], .nil⟩
  | some id =>
    have here := present id rfl
    clear present
    induction id using sound.descending.induction with
    | h id ih =>
      obtain ⟨node, found⟩ := forest.has_iff.mp here
      have further (side : Side) : ∃ trees, forest.Unfolds (node.link side) trees := by
        cases held : node.link side with
        | none => exact ⟨[], .nil⟩
        | some target =>
          have held : forest.link? ⟨id, side⟩ = some target := by rw [link?_of_found found, held]
          exact ih target (sound.owner_iff.mpr ⟨side, held⟩) (sound.target_exists held)
      choose trees unfolds using further
      exact ⟨_, .cons found (fun slot => unfolds (.child slot)) (unfolds .next)⟩

/-- The nodes of an unfolded chain are those under its start, each at its own depth. -/
theorem mem_preorderAll_iff (sound : forest.Sound) {start : Option NodeId}
    {trees : List (Rose NodeId)} (unfolds : forest.Unfolds start trees) {base depth : Nat}
    {id : NodeId} :
    (depth, id) ∈ Rose.preorderAll base trees ↔
      ∃ first below, start = some first ∧ forest.Descends first id below ∧ depth = base + below := by
  induction unfolds generalizing base with
  | nil => simp
  | @cons first node branches rest found _ _ below behind =>
    have link := link?_of_found found
    rw [Rose.preorderAll_cons, Rose.preorderAll_flatMap, List.mem_cons, List.mem_append,
      List.mem_flatMap]
    simp only [below, behind, ← link, List.mem_finRange, true_and, Option.some.injEq, Prod.mk.injEq]
    constructor
    · rintro (⟨rfl, rfl⟩ | ⟨slot, target, further, held, descends, rfl⟩ |
        ⟨target, further, held, descends, rfl⟩)
      · exact ⟨id, 0, rfl, .start, rfl⟩
      · exact ⟨first, _, rfl, sound.descends_of_held held descends, Nat.add_assoc ..⟩
      · exact ⟨first, _, rfl, sound.descends_of_held held descends, by rw [Side.levels, Nat.zero_add]⟩
    · rintro ⟨_, further, rfl, descends, rfl⟩
      obtain ⟨rfl, rfl⟩ | ⟨side, target, under, held, lower, rfl⟩ := descends.cases_first
      · exact .inl ⟨rfl, rfl⟩
      · cases side with
        | child slot => exact .inr (.inl ⟨slot, target, under, held, lower, (Nat.add_assoc ..).symm⟩)
        | next => exact .inr (.inr ⟨target, under, held, lower, by rw [Side.levels, Nat.zero_add]⟩)

/-- Of what a node holds, no two have a node under them in common. -/
theorem held_apart (sound : forest.Sound) {holder first second id : NodeId} {side other : Side}
    (atFirst : forest.link? ⟨holder, side⟩ = some first)
    (atSecond : forest.link? ⟨holder, other⟩ = some second)
    (underFirst : ReflTransGen forest.Owned id first)
    (underSecond : ReflTransGen forest.Owned id second) : side = other := by
  have ofFirst : forest.Owned first holder := sound.owner_iff.mpr ⟨side, atFirst⟩
  have ofSecond : forest.Owned second holder := sound.owner_iff.mpr ⟨other, atSecond⟩
  -- Owners are a function, so one of the two is above the other; then it is above its own holder.
  have apart {upper lower : NodeId} (ofUpper : forest.Owned upper holder)
      (ofLower : forest.Owned lower holder) (path : ReflTransGen forest.Owned lower upper) :
      lower = upper := by
    obtain rfl | ⟨next, owned, further⟩ := ReflTransGen.cases_head path
    · rfl
    · obtain rfl : next = holder := Option.some.inj (owned.symm.trans ofLower)
      exact absurd (TransGen.tail' further ofUpper) (sound.owners_end.not_circular next)
  have unique : Relator.RightUnique forest.Owned :=
    fun _ _ _ left right => Option.some.inj (left.symm.trans right)
  have same : first = second := by
    obtain path | path := underFirst.total_of_right_unique unique underSecond
    · exact apart ofSecond ofFirst path
    · exact (apart ofFirst ofSecond path).symm
  subst same
  have place := sound.place_unique atFirst atSecond
  simpa using place

theorem reaches_of_mem_preorderAll (sound : forest.Sound) {start : Option NodeId}
    {trees : List (Rose NodeId)} (unfolds : forest.Unfolds start trees) {base : Nat} {id : NodeId}
    (member : id ∈ (Rose.preorderAll base trees).map Prod.snd) :
    ∃ first, start = some first ∧ ReflTransGen forest.Owned id first := by
  obtain ⟨⟨depth, _⟩, listed, rfl⟩ := List.mem_map.mp member
  obtain ⟨first, below, starts, descends, _⟩ := (sound.mem_preorderAll_iff unfolds).mp listed
  exact ⟨first, starts, descends.reaches⟩

/-- A chain unfolds each node once. -/
theorem nodup_preorderAll (sound : forest.Sound) {start : Option NodeId}
    {trees : List (Rose NodeId)} (unfolds : forest.Unfolds start trees) (base : Nat) :
    ((Rose.preorderAll base trees).map Prod.snd).Nodup := by
  induction unfolds generalizing base with
  | nil => exact List.nodup_nil
  | @cons first node branches rest found below behind ihBelow ihBehind =>
    have link := link?_of_found found
    have under {side : Side} {trees : List (Rose NodeId)} {base : Nat} {id : NodeId}
        (unfolds : forest.Unfolds (node.link side) trees)
        (member : id ∈ (Rose.preorderAll base trees).map Prod.snd) :
        ∃ target, forest.link? ⟨first, side⟩ = some target ∧ ReflTransGen forest.Owned id target := by
      rw [link]
      exact sound.reaches_of_mem_preorderAll unfolds member
    have notFirst {side : Side} {trees : List (Rose NodeId)} {base : Nat}
        (unfolds : forest.Unfolds (node.link side) trees) :
        first ∉ (Rose.preorderAll base trees).map Prod.snd := by
      intro member
      obtain ⟨target, held, path⟩ := under unfolds member
      exact sound.owners_end.not_circular first
        (TransGen.tail' path (sound.owner_iff.mpr ⟨side, held⟩))
    have disjoint {side other : Side} {trees more : List (Rose NodeId)} {base second : Nat}
        (unfolds : forest.Unfolds (node.link side) trees)
        (further : forest.Unfolds (node.link other) more) (different : side ≠ other) :
        List.Disjoint ((Rose.preorderAll base trees).map Prod.snd)
          ((Rose.preorderAll second more).map Prod.snd) := by
      intro id atFirst atSecond
      obtain ⟨_, held, path⟩ := under unfolds atFirst
      obtain ⟨_, taken, other⟩ := under further atSecond
      exact different (sound.held_apart held taken path other)
    rw [Rose.preorderAll_cons, Rose.preorderAll_flatMap, List.map_cons, List.map_append,
      List.map_flatMap, List.nodup_cons, List.nodup_append', List.nodup_flatMap, List.mem_append,
      List.mem_flatMap]
    refine ⟨?_, ⟨fun slot _ => ihBelow slot _, ?_⟩, ihBehind _, ?_⟩
    · rintro (⟨slot, -, member⟩ | member)
      · exact notFirst (below slot) member
      · exact notFirst behind member
    · refine (List.nodup_finRange slotCount).imp fun {slot other} different => ?_
      exact disjoint (below slot) (below other) fun same => different (Side.child.inj same)
    · intro id atBelow atBehind
      obtain ⟨slot, -, member⟩ := List.mem_flatMap.mp atBelow
      exact disjoint (below slot) behind (by simp) member atBehind

end Sound

/-! ### Unfolding in steps -/

theorem branches_eq (node : Node) {α : Type} (visit : Option NodeId → List α) :
    node.children.toList.flatMap visit =
      (List.finRange slotCount).flatMap fun slot => visit (node.link (.child slot)) := by
  have listed : node.children.toList =
      (List.finRange slotCount).map fun slot => node.link (.child slot) := by
    apply List.ext_getElem
    · simp
    · intro index _ _
      simp [Node.link]
  rw [listed, List.flatMap_map]

/-- As many steps as there are nodes below a chain are enough to unfold it. -/
theorem rosesWithin_eq {start : Option NodeId} {trees : List (Rose NodeId)}
    (unfolds : forest.Unfolds start trees) {base steps : Nat}
    (enough : (Rose.preorderAll base trees).length ≤ steps) :
    forest.rosesWithin steps start = trees := by
  induction unfolds generalizing base steps with
  | nil => cases steps <;> rfl
  | @cons first node branches rest found _ _ below behind =>
    rw [Rose.preorderAll_cons, Rose.preorderAll_flatMap, List.length_cons, List.length_append] at enough
    obtain ⟨steps, rfl⟩ : ∃ fewer, steps = fewer + 1 := ⟨steps - 1, by omega⟩
    have slots (slot : Fin slotCount) :
        forest.rosesWithin steps (node.link (.child slot)) = branches slot := by
      have listed : Rose.preorderAll (base + 1) (branches slot) ∈
          (List.finRange slotCount).map fun slot => Rose.preorderAll (base + 1) (branches slot) :=
        List.mem_map_of_mem (List.mem_finRange slot)
      have part := (List.sublist_flatten_of_mem listed).length_le
      rw [← List.flatMap_def] at part
      exact below slot (by omega : (Rose.preorderAll (base + 1) (branches slot)).length ≤ steps)
    rw [rosesWithin]
    simp only [found, branches_eq, slots]
    congr 1
    exact behind (by omega : (Rose.preorderAll base rest).length ≤ steps)

/-- A chain unfolds into one list of trees at most. -/
theorem Unfolds.unique {start : Option NodeId} {trees others : List (Rose NodeId)}
    (unfolds : forest.Unfolds start trees) (further : forest.Unfolds start others) :
    trees = others := by
  have enough := Nat.le_max_left (Rose.preorderAll 0 trees).length (Rose.preorderAll 0 others).length
  have plenty := Nat.le_max_right (Rose.preorderAll 0 trees).length (Rose.preorderAll 0 others).length
  exact (rosesWithin_eq unfolds enough).symm.trans (rosesWithin_eq further plenty)

namespace Sound

/-- What a chain unfolds into is no larger than the forest. -/
theorem length_preorderAll_le (sound : forest.Sound) {start : Option NodeId}
    (present : ∀ id, start = some id → forest.has id) {trees : List (Rose NodeId)}
    (unfolds : forest.Unfolds start trees) (base : Nat) :
    (Rose.preorderAll base trees).length ≤ forest.size := by
  rw [← List.length_map (f := Prod.snd)]
  refine length_le_size (sound.nodup_preorderAll unfolds base) fun id member => ?_
  obtain ⟨first, starts, path⟩ := sound.reaches_of_mem_preorderAll unfolds member
  obtain rfl | ⟨_, owned, _⟩ := ReflTransGen.cases_head path
  · exact present id starts
  · exact sound.owned_exists owned

/-- In a sound forest a chain has what it unfolds into as its rose trees. -/
theorem unfolds_roses (sound : forest.Sound) {start : Option NodeId}
    (present : ∀ id, start = some id → forest.has id) : forest.Unfolds start (forest.roses start) := by
  obtain ⟨trees, unfolds⟩ := sound.exists_unfolds present
  rw [roses, rosesWithin_eq unfolds (sound.length_preorderAll_le present unfolds 0)]
  exact unfolds

end Sound

end Forest

end FrontEnd
