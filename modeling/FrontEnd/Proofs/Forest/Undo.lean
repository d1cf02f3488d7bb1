import FrontEnd.Proofs.Forest.Order
import FrontEnd.Proofs.Forest.Refusal

/-! # Undoing a replacement

A node that is put into a place sets the former node of that place free. Nothing that is below the
former node is changed but its own owner, and it is not above the place. So it can be put back, and
then every node is as it was. It can be put into any other empty position as well that is not below
it.
-/

namespace FrontEnd

open Relation

/-- To hold a node again that was held before is to have held no other in between. -/
theorem Node.hold_hold {node : Node} {side : Side} {former : NodeId}
    (held : node.link side = some former) (target : NodeId) :
    (node.hold side target).hold side former = node := by
  cases side with
  | child slot =>
    have same : node.children[slot.val] = some former := held
    simp only [hold, Vector.set_set, ← same, Vector.set_getElem_self]
  | next =>
    have same : node.sibling = some former := held
    simp only [hold, ← same]

namespace Forest

variable {forest : Forest} {place : Place} {target former : NodeId}

/-- A place that was given to a node holds it. -/
theorem Admits.placed (admits : forest.Admits place target) :
    (forest.occupy place target).link? place = some target := by
  rw [forest.link?_occupy _ _ admits.holder_exists, if_pos rfl]

namespace Sound

variable (sound : forest.Sound) (admits : forest.Admits place target)
  (held : forest.link? place = some former)

include sound admits held

/-- What is below a former node is neither its holder nor the new node of the place. -/
theorem apart_of_below {id : NodeId} (below : ReflTransGen forest.Holds former id) :
    id ≠ place.holder ∧ id ≠ target := by
  have holds : forest.Holds place.holder former := ⟨place.side, held⟩
  refine ⟨?_, ?_⟩
  · rintro rfl
    exact sound.not_below_itself place.holder (.head' holds below)
  · rintro rfl
    have nowhere := sound.link?_ne_of_free admits.free
    obtain rfl | ⟨_, _, side, last⟩ := (ReflTransGen.cases_tail_iff _ _ _).mp below
    · exact nowhere place held
    · exact nowhere _ last

theorem former_ne_target : former ≠ target :=
  (sound.apart_of_below admits held .refl).2

theorem owner?_former : (forest.occupy place target).owner? former = none := by
  rw [forest.owner?_occupy _ _ admits.target_exists, if_neg (sound.former_ne_target admits held),
    if_pos held]

/-- A former node holds what it held, however far below. -/
theorem below_former_iff {id : NodeId} :
    ReflTransGen (forest.occupy place target).Holds former id ↔
      ReflTransGen forest.Holds former id := by
  have same {holder : NodeId} (below : ReflTransGen forest.Holds former holder) (held' : NodeId) :
      (forest.occupy place target).Holds holder held' ↔ forest.Holds holder held' := by
    refine exists_congr fun side => ?_
    rw [forest.link?_occupy _ _ admits.holder_exists, if_neg]
    rintro rfl
    exact (sound.apart_of_below admits held below).1 rfl
  constructor
  · intro path
    induction path with
    | refl => exact .refl
    | tail _ holds ih => exact ih.tail ((same ih _).mp holds)
  · intro path
    induction path with
    | refl => exact .refl
    | tail below holds ih => exact ih.tail ((same below _).mpr holds)

/-- The place that a former node was in is not below it. -/
theorem place_outside :
    ¬ ReflTransGen (forest.occupy place target).Holds former place.holder := fun path =>
  (sound.apart_of_below admits held ((sound.below_former_iff admits held).mp path)).1 rfl

/-- Of what is below a former node, only that node itself is changed, and only its owner. -/
theorem node?_below {id : NodeId} (below : ReflTransGen forest.Holds former id) :
    (forest.occupy place target).node? id =
      (forest.node? id).map fun node => if id = former then { node with owner := none } else node := by
  obtain ⟨notHolder, notTarget⟩ := sound.apart_of_below admits held below
  rw [node?_occupy]
  refine congrArg (Option.map · _) (funext fun node => ?_)
  simp only [relinked, notHolder, notTarget, held, Option.some.injEq, ↓reduceIte, eq_comm]

/-- A former node can be put into every place that is not below it. -/
theorem admits_former {other : Place} (holder : forest.has other.holder)
    (outside : ¬ ReflTransGen (forest.occupy place target).Holds former other.holder) :
    (forest.occupy place target).Admits other former := by
  have present : (forest.occupy place target).has other.holder := by rwa [has_occupy]
  constructor
  case holder_exists => exact present
  case target_exists =>
    rw [has_occupy]
    exact sound.target_exists held
  case free => exact sound.owner?_former admits held
  case not_root =>
    intro start
    rw [root_occupy] at start
    have owned : forest.owner? former = some place.holder := sound.owner_iff.mpr ⟨place.side, held⟩
    rw [sound.root_free start] at owned
    cases owned
  case not_above =>
    rwa [(sound.occupy admits).mem_lineage_iff present, ← (sound.occupy admits).reaches_iff]

/-- A former node that is put back leaves no trace of the one in between. -/
theorem occupy_occupy : (forest.occupy place target).occupy place former = forest := by
  obtain ⟨formerApart, apart⟩ := sound.apart_of_below admits held .refl
  have targetApart : target ≠ place.holder := by
    rintro rfl
    exact admits.not_above ((sound.mem_lineage_iff admits.holder_exists).mpr .refl)
  have taken := admits.placed
  refine eq_of_node? (fun id => ?_) (by simp)
  rw [node?_occupy, node?_occupy, Option.map_map]
  cases found : forest.node? id with
  | none => rfl
  | some node =>
    have owner : forest.owner? id = node.owner := by rw [owner?, found, Option.bind_some]
    refine congrArg some ?_
    by_cases isFormer : id = former
    · subst isFormer
      rw [sound.owner_iff.mpr ⟨place.side, held⟩] at owner
      simp [relinked, formerApart, apart, held, owner]
    by_cases isTarget : id = target
    · subst isTarget
      rw [admits.free] at owner
      simp [relinked, targetApart, isFormer, taken, owner]
    · have others : former ≠ id ∧ target ≠ id := ⟨Ne.symm isFormer, Ne.symm isTarget⟩
      simp only [Function.comp_apply, relinked, isFormer, isTarget, held, taken, others,
        Option.some.injEq, ↓reduceIte]
      split
      · next isHolder =>
        rw [link?, ← isHolder, found] at held
        exact Node.hold_hold held target
      · rfl

end Sound

/-- What has become of a node that was set free. -/
structure Detached (forest after : Forest) (former : NodeId) : Prop where
  unowned : after.owner? former = none
  not_root : after.root ≠ some former
  /-- The same nodes are below it as before. -/
  below : ∀ id, ReflTransGen after.Holds former id ↔ ReflTransGen forest.Holds former id
  /-- They are as they were, but for the owner of the node itself. -/
  kept : ∀ id, ReflTransGen forest.Holds former id → after.node? id =
    (forest.node? id).map fun node => if id = former then { node with owner := none } else node
  /-- It can be linked into every empty position that is not below it. -/
  linkable : ∀ (call : LinkCall) (place : Place), call.place? = some place → call.target = former →
    after.has place.holder → call.occupant? after = none →
    ¬ ReflTransGen after.Holds former place.holder → ∃ linked, call.make after = .ok (none, linked)

theorem Sound.detached (sound : forest.Sound) (admits : forest.Admits place target)
    (held : forest.link? place = some former) :
    forest.Detached (forest.occupy place target) former where
  unowned := sound.owner?_former admits held
  not_root := (sound.admits_former admits held admits.holder_exists
    (sound.place_outside admits held)).not_root
  below _ := sound.below_former_iff admits held
  kept _ below := sound.node?_below admits held below
  linkable call other placed targeted holder vacant outside := by
    obtain ⟨make_eq, occupant_eq⟩ := call.make_of_place placed (forest.occupy place target)
    rw [occupant_eq] at vacant
    rw [has_occupy] at holder
    rw [make_eq, targeted]
    exact ⟨_, attach_of_admits (sound.admits_former admits held holder outside) vacant⟩

end Forest

/-- A call on the same position with another target. -/
def LinkCall.retarget : LinkCall → NodeId → LinkCall
  | .child parent slot _, target => .child parent slot target
  | .next node _, target => .next node target

namespace Script.Workbench

/-- On every forest that a script has built, a link that takes the place of another one can be undone:
the former node can be put back, which yields the node that had taken its place, and the forest is
what it was. In between the former node is free and whole, and can be linked elsewhere. -/
theorem replacement_undone (status : Status) (steps : List ForestStep) {call : LinkCall}
    {former : NodeId} {after : Forest}
    (made : call.make ((start status).run steps).2.forest = .ok (some former, after)) :
    let forest := ((start status).run steps).2.forest
    (call.retarget former).make after = .ok (some call.target, forest) ∧
      forest.Detached after former := by
  intro forest
  have sound : forest.Sound := sound_run .empty steps
  obtain ⟨place, placed⟩ := LinkCall.place?_of_made made
  have placed' : (call.retarget former).place? = some place ∧
      (call.retarget former).target = former := by
    cases call <;> exact ⟨placed, rfl⟩
  rw [(call.make_of_place placed _).1] at made
  rw [((call.retarget former).make_of_place placed'.1 _).1, placed'.2]
  obtain ⟨-, nothing, -⟩ | ⟨admits, held, rfl⟩ := Forest.attach_ok_cases made
  · cases nothing
  have held : forest.link? place = some former := held.symm
  have taken := admits.placed
  have again := sound.admits_former admits held admits.holder_exists
    (sound.place_outside admits held)
  have other : (forest.occupy place call.target).link? place ≠ some former := by
    rw [taken]
    exact fun same => sound.former_ne_target admits held (Option.some.inj same).symm
  refine ⟨?_, sound.detached admits held⟩
  rw [again.attach_eq other, taken, sound.occupy_occupy admits held]

/-- A branch with a node below it is taken out and put back. -/
theorem replacement_undone_branch :
    let steps := List.replicate 4 (ForestStep.make (.statement .compound) none) ++
      [.attachChild ⟨0⟩ 1 ⟨1⟩, .attachNext ⟨1⟩ ⟨2⟩]
    let forest := ((start {}).run steps).2.forest
    ∃ after, (LinkCall.child ⟨0⟩ 1 ⟨3⟩).make forest = .ok (some ⟨1⟩, after) ∧
      (LinkCall.child ⟨0⟩ 1 ⟨1⟩).make after = .ok (some ⟨3⟩, forest) ∧
      forest.Detached after ⟨1⟩ := by
  intro steps forest
  have yields : ((LinkCall.child ⟨0⟩ 1 ⟨3⟩).make forest).map Prod.fst = .ok (some ⟨1⟩) := by decide
  obtain ⟨⟨_, after⟩, made, rfl⟩ := Forest.exists_of_map_eq_ok yields
  exact ⟨after, made, replacement_undone {} steps made⟩

end Script.Workbench

end FrontEnd
