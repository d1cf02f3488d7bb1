import FrontEnd.Proofs.Forest.Preservation

/-! # When links are refused

Whether a node can be put into a place is decided by walking up from that place along owners. In a
sound forest this tells what the links say downwards: a node has an owner if something holds it, and
the topmost owner above a place is a free node from which links lead down to the place. So every
attempt comes to one of four ends, which the links and the root of the forest determine, and a link
that is made changes one place and the owners of two nodes.
-/

namespace FrontEnd

open Relation

namespace Forest

variable {forest : Forest} {place : Place} {target : NodeId}

/-- One node holds another, as a child or as its next node. -/
def Holds (forest : Forest) (holder target : NodeId) : Prop :=
  ∃ side, forest.link? ⟨holder, side⟩ = some target

/-- Something holds a node already, or the top level chain starts at it. -/
def Taken (forest : Forest) (target : NodeId) : Prop :=
  (∃ holder, forest.Holds holder target) ∨ forest.root = some target

/-- What a forest has become when a place was given to a target, and nothing else was changed. -/
structure Relinks (forest : Forest) (place : Place) (target : NodeId) (after : Forest) : Prop where
  node : ∀ id, after.node? id = (forest.node? id).map (forest.relinked place target id)
  root : after.root = forest.root

theorem relinks_occupy (forest : Forest) (place : Place) (target : NodeId) :
    forest.Relinks place target (forest.occupy place target) :=
  ⟨forest.node?_occupy place target, forest.root_occupy place target⟩

theorem Relinks.eq_occupy {after : Forest} (relinks : forest.Relinks place target after) :
    after = forest.occupy place target :=
  eq_of_node? (fun id => (relinks.node id).trans (forest.node?_occupy place target id).symm)
    (relinks.root.trans (forest.root_occupy place target).symm)

/-- What an attempt to put a node into a place comes to. -/
inductive Attempt (forest : Forest) (place : Place) (target : NodeId) :
    Except LinkError (Option NodeId × Forest) → Prop
  /-- The link is there already. -/
  | again (same : forest.link? place = some target) : Attempt forest place target (.ok (none, forest))
  | owned (other : forest.link? place ≠ some target) (taken : forest.Taken target) :
      Attempt forest place target (.error (.alreadyOwned target))
  /-- Links lead from the node down to the place. -/
  | cycle (other : forest.link? place ≠ some target) (free : ¬ forest.Taken target)
      (below : ReflTransGen forest.Holds target place.holder) :
      Attempt forest place target (.error (.cycle target))
  | linked (other : forest.link? place ≠ some target) (free : ¬ forest.Taken target)
      (apart : ¬ ReflTransGen forest.Holds target place.holder) :
      Attempt forest place target (.ok (forest.link? place, forest.occupy place target))

namespace Sound

variable (sound : forest.Sound)

include sound

theorem holds_iff {holder : NodeId} : forest.Holds holder target ↔ forest.Owned target holder :=
  sound.owner_iff.symm

/-- Links lead down from one node to another just if owners lead up from the other one. -/
theorem reaches_iff {above below : NodeId} :
    ReflTransGen forest.Holds above below ↔ ReflTransGen forest.Owned below above := by
  rw [← reflTransGen_swap]
  have same : Function.swap forest.Holds = forest.Owned := by
    funext held holder
    exact propext sound.holds_iff
  rw [same]

theorem taken_iff : forest.Taken target ↔
    forest.owner? target ≠ none ∨ forest.root = some target := by
  simp only [Taken, sound.holds_iff, owned_iff, Option.ne_none_iff_exists']

/-- The last node of a lineage is the topmost owner. -/
theorem getLast?_lineage_iff {id top : NodeId} (present : forest.has id) :
    (forest.lineage id).getLast? = some top ↔
      ReflTransGen forest.Owned id top ∧ forest.owner? top = none :=
  (sound.owners_end.passes_follow present).getLast?_eq_some_iff

/-- Links lead down from a free node just to the places that it is the topmost owner of. -/
theorem reaches_iff_topmost {holder : NodeId} (present : forest.has holder)
    (free : ¬ forest.Taken target) :
    ReflTransGen forest.Holds target holder ↔ (forest.lineage holder).getLast? = some target := by
  rw [sound.taken_iff, not_or, not_not] at free
  rw [sound.reaches_iff, sound.getLast?_lineage_iff present]
  exact (and_iff_left free.1).symm

theorem attempt (holder : forest.has place.holder) (present : forest.has target) :
    forest.Attempt place target (forest.attach place target) := by
  unfold Forest.attach
  simp only [holder, present, Bool.not_true, Bool.false_eq_true, ↓reduceIte]
  split
  · next same => exact .again same
  · next other =>
    unfold refusal?
    by_cases taken : forest.Taken target
    · have checked : (forest.owner? target).isSome || forest.root == some target := by
        simpa [Option.isSome_iff_ne_none] using sound.taken_iff.mp taken
      rw [if_pos checked]
      exact .owned other taken
    · have checked : ¬ ((forest.owner? target).isSome || forest.root == some target) := by
        simpa [Option.isSome_iff_ne_none] using mt sound.taken_iff.mpr taken
      have above : target ∈ forest.lineage place.holder ↔
          ReflTransGen forest.Holds target place.holder := by
        rw [sound.mem_lineage_iff holder, sound.reaches_iff]
      rw [if_neg checked]
      by_cases below : ReflTransGen forest.Holds target place.holder
      · rw [if_pos (above.mpr below)]
        exact .cycle other taken below
      · rw [if_neg (mt above.mp below)]
        exact .linked other taken below

end Sound

end Forest

namespace Script.Workbench

open Forest

/-- How a call that is to put a node into a place is answered, and what it leaves. -/
structure Decides (bench : Workbench) (place : Place) (target : NodeId)
    (outcome : ForestAnswer × Workbench) : Prop where
  /-- A link that is there already is accepted, and it yields no former node. -/
  again : bench.forest.link? place = some target → outcome = (.linked none, bench)
  owned : bench.forest.link? place ≠ some target →
    (outcome.1 = .refused (.alreadyOwned target) ↔ bench.forest.Taken target)
  cycle : bench.forest.link? place ≠ some target → ¬ bench.forest.Taken target →
    (outcome.1 = .refused (.cycle target) ↔
      ReflTransGen bench.forest.Holds target place.holder)
  /-- What links lead down to is told by the topmost owner as well. -/
  topmost : ¬ bench.forest.Taken target →
    (ReflTransGen bench.forest.Holds target place.holder ↔
      (bench.forest.lineage place.holder).getLast? = some target)
  linked : bench.forest.link? place ≠ some target → ¬ bench.forest.Taken target →
    ¬ ReflTransGen bench.forest.Holds target place.holder →
    ∃ after, outcome = (.linked (bench.forest.link? place), { bench with forest := after }) ∧
      bench.forest.Relinks place target after
  refused : ∀ reason, outcome.1 = .refused reason → outcome.2 = bench
  placed : ∀ slot, outcome.1 ≠ .refused (.slotOutOfRange slot)

theorem decides_attach {bench : Workbench} (sound : bench.forest.Sound) {place : Place}
    {target : NodeId} (holder : bench.forest.has place.holder) (present : bench.forest.has target) :
    bench.Decides place target (bench.settle (bench.forest.attach place target)) := by
  have topmost (free : ¬ bench.forest.Taken target) := sound.reaches_iff_topmost holder free
  have attempt := sound.attempt holder present
  generalize bench.forest.attach place target = result at attempt
  cases attempt with
  | again same =>
    constructor
    case topmost => exact topmost
    case refused => nofun
    all_goals simp [settle, same]
  | owned other taken =>
    constructor
    case topmost => exact topmost
    case refused => exact fun _ _ => rfl
    all_goals simp [settle, other, taken]
  | cycle other free below =>
    constructor
    case topmost => exact topmost
    case refused => exact fun _ _ => rfl
    all_goals simp [settle, other, free, below]
  | linked other free apart =>
    constructor
    case topmost => exact topmost
    case refused => nofun
    case linked => exact fun _ _ _ => ⟨_, rfl, relinks_occupy ..⟩
    all_goals simp [settle, other, free, apart]

/-- On every forest that a script has built, links between its nodes are refused exactly when they
must be: if there is no such slot; if the node is held elsewhere or the root; if links lead from it
down to its new holder, which is so if it is the topmost owner there. A link that is there is
accepted and changes nothing. Every other link is made, yields the former node of its place and
changes nothing but that place and the owners of the two nodes. A refusal changes nothing. -/
theorem links_decided (status : Status) (steps : List ForestStep) {holder target : NodeId}
    (present : ((start status).run steps).2.forest.has holder)
    (targeted : ((start status).run steps).2.forest.has target) (slot : Nat) :
    let bench := ((start status).run steps).2
    let child := bench.step (.attachChild holder slot target)
    let next := bench.step (.attachNext holder target)
    (child.1 = .refused (.slotOutOfRange slot) ↔ slotCount ≤ slot) ∧
    (slotCount ≤ slot → child.2 = bench) ∧
    (∀ inRange : slot < slotCount, bench.Decides ⟨holder, .child ⟨slot, inRange⟩⟩ target child) ∧
    bench.Decides ⟨holder, .next⟩ target next := by
  intro bench child next
  have sound : bench.forest.Sound := sound_run .empty steps
  have decided (inRange : slot < slotCount) :
      bench.Decides ⟨holder, .child ⟨slot, inRange⟩⟩ target child := by
    have attached : child =
        bench.settle (bench.forest.attach ⟨holder, .child ⟨slot, inRange⟩⟩ target) :=
      congrArg bench.settle (dif_pos inRange)
    rw [attached]
    exact decides_attach sound present targeted
  have outside (beyond : slotCount ≤ slot) : child = (.refused (.slotOutOfRange slot), bench) :=
    congrArg bench.settle (dif_neg (Nat.not_lt.mpr beyond))
  refine ⟨⟨fun refused => ?_, fun beyond => congrArg Prod.fst (outside beyond)⟩,
    fun beyond => congrArg Prod.snd (outside beyond), decided, decides_attach sound present targeted⟩
  by_contra inRange
  exact (decided (Nat.not_le.mp inRange)).placed slot refused

/-- A node with a child, and a node behind that child: the first node is above the last one, whatever
kinds of link there are between them. -/
theorem links_decided_branch :
    let steps := List.replicate 3 (ForestStep.make (.statement .compound) none) ++
      [.attachChild ⟨0⟩ 2 ⟨1⟩, .attachNext ⟨1⟩ ⟨2⟩]
    let bench := ((start {}).run steps).2
    bench.forest.has ⟨2⟩ ∧ bench.forest.has ⟨0⟩ ∧
      (bench.step (.attachChild ⟨2⟩ 0 ⟨0⟩)).1 = .refused (.cycle ⟨0⟩) ∧
      (bench.step (.attachChild ⟨2⟩ 0 ⟨0⟩)).2 = bench ∧
      (bench.step (.attachChild ⟨2⟩ 3 ⟨0⟩)).1 = .refused (.slotOutOfRange 3) := by
  intro steps bench
  have present : bench.forest.has ⟨2⟩ := by decide
  have targeted : bench.forest.has ⟨0⟩ := by decide
  obtain ⟨-, -, decided, -⟩ := links_decided {} steps present targeted 0
  obtain ⟨outside, -⟩ := links_decided {} steps present targeted 3
  have decides := decided (by decide)
  have free : ¬ bench.forest.Taken ⟨0⟩ := by
    rw [(sound_run .empty steps : bench.forest.Sound).taken_iff]
    decide
  have topmost : (bench.forest.lineage ⟨2⟩).getLast? = some ⟨0⟩ := by decide
  have refused := (decides.cycle (by decide) free).mpr ((decides.topmost free).mpr topmost)
  exact ⟨present, targeted, refused, decides.refused _ refused, outside.mpr (Nat.le_refl 3)⟩

end Script.Workbench

end FrontEnd
