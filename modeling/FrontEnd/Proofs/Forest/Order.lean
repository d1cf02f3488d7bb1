import FrontEnd.Proofs.Forest.Preservation

/-! # The order of links

A link that fills an empty position sets no node free, so it takes nothing from the links around it.
Two such links that are made one after the other can be made in the other order: the positions and
the nodes are different, and a circle that the earlier order would not close cannot be closed by the
later one, since both end in the same forest. So links that fill empty positions can be made in any
order.
-/

namespace FrontEnd

open Relation

/-! ### Calls -/

/-- A call that links two nodes. -/
inductive LinkCall where
  | child (parent : NodeId) (slot : Nat) (child : NodeId)
  | next (node next : NodeId)
deriving DecidableEq, Repr

namespace LinkCall

def make (forest : Forest) : LinkCall → Except LinkError (Option NodeId × Forest)
  | .child parent slot target => forest.attachChild parent slot target
  | .next node target => forest.attachNext node target

/-- What a forest holds in the position of a call. -/
def occupant? (forest : Forest) : LinkCall → Option NodeId
  | .child parent slot _ => forest.child? parent slot
  | .next node _ => forest.sibling? node

def target : LinkCall → NodeId
  | .child _ _ target => target
  | .next _ target => target

/-- The position of a call, if there is such a slot. -/
def place? : LinkCall → Option Place
  | .child parent slot _ =>
    if inRange : slot < slotCount then some ⟨parent, .child ⟨slot, inRange⟩⟩ else none
  | .next node _ => some ⟨node, .next⟩

end LinkCall

/-- Make calls one after the other as long as they succeed, each on a position that is empty when it
is made. This yields what each of them yields, and the forest that they end in. -/
def Forest.fill (forest : Forest) : List LinkCall → Option (List (Option NodeId) × Forest)
  | [] => some ([], forest)
  | call :: rest =>
    match call.occupant? forest, call.make forest with
    | none, .ok (former, linked) =>
      (linked.fill rest).map fun later => (former :: later.1, later.2)
    | _, _ => none

/-! ### Links into empty positions -/

namespace Forest

variable {forest : Forest}

theorem link?_child (forest : Forest) (id : NodeId) (slot : Fin slotCount) :
    forest.link? ⟨id, .child slot⟩ = forest.child? id slot := by
  simp [link?, child?, Node.link]

/-- An empty place that admits a node can be given it. -/
theorem attach_of_admits {place : Place} {target : NodeId} (admits : forest.Admits place target)
    (vacant : forest.link? place = none) :
    forest.attach place target = .ok (none, forest.occupy place target) := by
  rw [admits.attach_eq (by simp [vacant]), vacant]

end Forest

/-- A call that puts a node into an empty place that admits it. -/
structure LinkCall.Fits (call : LinkCall) (forest : Forest) (place : Place) : Prop where
  placed : call.place? = some place
  vacant : forest.link? place = none
  admits : forest.Admits place call.target

namespace LinkCall

variable {call : LinkCall} {forest after : Forest} {former : Option NodeId}

theorem make_of_place {place : Place} (placed : call.place? = some place) (forest : Forest) :
    call.make forest = forest.attach place call.target ∧
      call.occupant? forest = forest.link? place := by
  cases call with
  | child parent slot child =>
    rw [place?] at placed
    split_ifs at placed with inRange
    cases placed
    refine ⟨?_, (forest.link?_child parent ⟨slot, inRange⟩).symm⟩
    rw [make, Forest.attachChild, dif_pos inRange]
    rfl
  | next node next =>
    cases placed
    exact ⟨rfl, rfl⟩

theorem place?_of_made (made : call.make forest = .ok (former, after)) :
    ∃ place, call.place? = some place := by
  cases call with
  | child parent slot child =>
    obtain ⟨inRange, -⟩ := Forest.attachChild_ok made
    exact ⟨_, dif_pos inRange⟩
  | next node next => exact ⟨_, rfl⟩

/-- A call on an empty position succeeds just if it fits, and then it yields no former node. -/
theorem fits_iff :
    (call.occupant? forest = none ∧ call.make forest = .ok (former, after)) ↔
      former = none ∧ ∃ place, call.Fits forest place ∧ after = forest.occupy place call.target := by
  constructor
  · rintro ⟨vacant, made⟩
    obtain ⟨place, placed⟩ := place?_of_made made
    obtain ⟨make_eq, occupant_eq⟩ := make_of_place placed forest
    rw [make_eq] at made
    rw [occupant_eq] at vacant
    obtain ⟨same, -, -⟩ | ⟨admits, yields, result⟩ := Forest.attach_ok_cases made
    · rw [vacant] at same
      cases same
    · exact ⟨yields.trans vacant, place, ⟨placed, vacant, admits⟩, result⟩
  · rintro ⟨rfl, place, fits, rfl⟩
    obtain ⟨make_eq, occupant_eq⟩ := make_of_place fits.placed forest
    rw [make_eq, occupant_eq]
    exact ⟨fits.vacant, Forest.attach_of_admits fits.admits fits.vacant⟩

end LinkCall

/-! ### Two links -/

/-- Sides of a node are filled independently. -/
theorem Node.hold_comm (node : Node) {side other : Side} (apart : side ≠ other)
    (first second : NodeId) :
    (node.hold side first).hold other second = (node.hold other second).hold side first := by
  cases side with
  | next =>
    cases other with
    | next => exact absurd rfl apart
    | child slot => rfl
  | child slot =>
    cases other with
    | next => rfl
    | child otherSlot =>
      have slots : slot.val ≠ otherSlot.val := by
        intro same
        exact apart (congrArg Side.child (Fin.ext same))
      simp only [hold]
      rw [Vector.set_comm _ _ slots]

namespace Forest

variable {forest : Forest}

/-- What a node holds once a place was given to a target. -/
def heldAt (place : Place) (target id : NodeId) (node : Node) : Node :=
  if id = place.holder then node.hold place.side target else node

/-- What owns a node once a place was given to a target. -/
def ownedAt (place : Place) (target id : NodeId) (node : Node) : Node :=
  if id = target then { node with owner := some place.holder } else node

theorem node?_occupy_vacant {place : Place} (vacant : forest.link? place = none)
    (target id : NodeId) :
    (forest.occupy place target).node? id =
      (forest.node? id).map fun node => ownedAt place target id (heldAt place target id node) := by
  rw [node?_occupy]
  refine congrArg (Option.map · _) (funext fun node => ?_)
  simp only [relinked, vacant, reduceCtorEq, ↓reduceIte]
  rfl

theorem heldAt_comm {first second : Place} (places : second ≠ first) (target other id : NodeId)
    (node : Node) :
    heldAt second other id (heldAt first target id node) =
      heldAt first target id (heldAt second other id node) := by
  unfold heldAt
  split_ifs with isFirst isSecond
  · apply Node.hold_comm
    intro sides
    apply places
    obtain ⟨_, _⟩ := first
    obtain ⟨_, _⟩ := second
    simp_all
  all_goals rfl

theorem ownedAt_comm {target other : NodeId} (targets : other ≠ target) (first second : Place)
    (id : NodeId) (node : Node) :
    ownedAt second other id (ownedAt first target id node) =
      ownedAt first target id (ownedAt second other id node) := by
  unfold ownedAt
  split_ifs with isTarget isOther
  · exact absurd (isOther.symm.trans isTarget).symm targets
  all_goals rfl

/-- What a node holds and what owns it are told apart. -/
theorem heldAt_ownedAt (first second : Place) (target other id : NodeId) (node : Node) :
    heldAt second other id (ownedAt first target id node) =
      ownedAt first target id (heldAt second other id node) := by
  obtain ⟨holder, side⟩ := second
  unfold heldAt ownedAt
  split_ifs
  · cases side <;> rfl
  all_goals rfl

variable {first second : Place} {target other : NodeId}

/-- Two empty places are filled with two nodes in either order. -/
theorem occupy_comm (holder : forest.has first.holder) (holder' : forest.has second.holder)
    (vacant : forest.link? first = none) (vacant' : forest.link? second = none)
    (places : second ≠ first) (targets : other ≠ target) :
    (forest.occupy first target).occupy second other =
      (forest.occupy second other).occupy first target := by
  have laterVacant : (forest.occupy first target).link? second = none := by
    rw [forest.link?_occupy _ _ holder, if_neg places, vacant']
  have laterVacant' : (forest.occupy second other).link? first = none := by
    rw [forest.link?_occupy _ _ holder', if_neg places.symm, vacant]
  refine eq_of_node? (fun id => ?_) (by simp)
  rw [node?_occupy_vacant laterVacant, node?_occupy_vacant vacant, node?_occupy_vacant laterVacant',
    node?_occupy_vacant vacant', Option.map_map, Option.map_map]
  refine congrArg (Option.map · _) (funext fun node => ?_)
  simp only [Function.comp_apply]
  rw [heldAt_ownedAt, heldAt_comm places, ownedAt_comm targets, heldAt_ownedAt]

/-- Filling an empty place takes no node from its owner. -/
theorem owner?_occupy_vacant (present : forest.has target) (vacant : forest.link? first = none)
    (id : NodeId) :
    (forest.occupy first target).owner? id =
      if id = target then some first.holder else forest.owner? id := by
  rw [forest.owner?_occupy _ _ present, vacant]
  simp only [reduceCtorEq, ↓reduceIte]

/-- Filling an empty place leaves every owner that there was. -/
theorem Owned.occupy (present : forest.has target) (vacant : forest.link? first = none)
    (free : forest.owner? target = none) {held holder : NodeId}
    (owned : forest.Owned held holder) : (forest.occupy first target).Owned held holder := by
  have different : held ≠ target := by
    rintro rfl
    rw [owned_iff, free] at owned
    cases owned
  rw [owned_iff, owner?_occupy_vacant present vacant, if_neg different]
  exact owned

/-- Whatever is above a node stays above it. -/
theorem mem_lineage_occupy (sound : forest.Sound) (admits : forest.Admits first target)
    (vacant : forest.link? first = none) {id above : NodeId} (present : forest.has id)
    (member : above ∈ forest.lineage id) : above ∈ (forest.occupy first target).lineage id := by
  have path := (sound.mem_lineage_iff present).mp member
  have grown : ReflTransGen (forest.occupy first target).Owned id above :=
    ReflTransGen.mono (fun _ _ => Owned.occupy admits.target_exists vacant admits.free) _ _ path
  have present : (forest.occupy first target).has id := by simpa using present
  exact ((sound.occupy admits).mem_lineage_iff present).mpr grown

/-- A node that was put into an empty place without closing a circle was not above it. -/
theorem not_mem_lineage_of_sound (sound : forest.Sound) (after : (forest.occupy first target).Sound)
    (holder : forest.has first.holder) (present : forest.has target)
    (vacant : forest.link? first = none) (free : forest.owner? target = none) :
    target ∉ forest.lineage first.holder := by
  intro above
  have path := (sound.mem_lineage_iff holder).mp above
  have grown : ReflTransGen (forest.occupy first target).Owned first.holder target :=
    ReflTransGen.mono (fun _ _ => Owned.occupy present vacant free) _ _ path
  have closing : (forest.occupy first target).Owned target first.holder := by
    rw [owned_iff, owner?_occupy_vacant present vacant, if_pos rfl]
  exact after.owners_end.not_circular target (.head' closing grown)

end Forest

namespace LinkCall

variable {forest : Forest} {earlier later : LinkCall} {first second : Place}

/-- What fits behind a link that has filled an empty place fits without it as well. -/
theorem Fits.of_occupy (sound : forest.Sound) (fits : earlier.Fits forest first)
    (fits' : later.Fits (forest.occupy first earlier.target) second) :
    later.Fits forest second ∧ second ≠ first ∧ later.target ≠ earlier.target := by
  obtain ⟨placed, vacant, holder_exists, target_exists, free, not_root, not_above⟩ := fits'
  rw [forest.link?_occupy _ _ fits.admits.holder_exists] at vacant
  rw [Forest.owner?_occupy_vacant fits.admits.target_exists fits.vacant] at free
  rw [Forest.has_occupy] at holder_exists target_exists
  rw [Forest.root_occupy] at not_root
  split_ifs at vacant with places
  split_ifs at free with targets
  refine ⟨⟨placed, vacant, holder_exists, target_exists, free, not_root, ?_⟩, places, targets⟩
  intro above
  exact not_above (Forest.mem_lineage_occupy sound fits.admits fits.vacant holder_exists above)

/-- Of two links that fill empty places one after the other, the earlier one can be made behind the
later one, and the forest is the same. -/
theorem Fits.swap (sound : forest.Sound) (fits : earlier.Fits forest first)
    (fits' : later.Fits (forest.occupy first earlier.target) second) :
    later.Fits forest second ∧ earlier.Fits (forest.occupy second later.target) first ∧
      (forest.occupy first earlier.target).occupy second later.target =
        (forest.occupy second later.target).occupy first earlier.target := by
  obtain ⟨fits'', places, targets⟩ := fits.of_occupy sound fits'
  have holder := fits.admits.holder_exists
  have holder' := fits''.admits.holder_exists
  have same := Forest.occupy_comm holder holder' fits.vacant fits''.vacant places targets
  have holder_exists : (forest.occupy second later.target).has first.holder := by
    rwa [Forest.has_occupy]
  have target_exists : (forest.occupy second later.target).has earlier.target := by
    rw [Forest.has_occupy]
    exact fits.admits.target_exists
  have vacant : (forest.occupy second later.target).link? first = none := by
    rw [forest.link?_occupy _ _ holder', if_neg places.symm, fits.vacant]
  have free : (forest.occupy second later.target).owner? earlier.target = none := by
    rw [Forest.owner?_occupy_vacant fits''.admits.target_exists fits''.vacant, if_neg targets.symm,
      fits.admits.free]
  have not_root : (forest.occupy second later.target).root ≠ some earlier.target := by
    rw [Forest.root_occupy]
    exact fits.admits.not_root
  -- Both orders end in one forest, and in the order that was taken this forest is sound.
  have both := (sound.occupy fits.admits).occupy fits'.admits
  rw [same] at both
  have not_above := Forest.not_mem_lineage_of_sound (sound.occupy fits''.admits) both holder_exists
    target_exists vacant free
  exact ⟨fits'', ⟨fits.placed, vacant, holder_exists, target_exists, free, not_root, not_above⟩, same⟩

end LinkCall

/-! ### Any order -/

namespace Forest

variable {forest after : Forest} {calls others : List LinkCall} {formers : List (Option NodeId)}

theorem fill_cons_iff {call : LinkCall} :
    forest.fill (call :: calls) = some (formers, after) ↔
      ∃ place later, call.Fits forest place ∧ formers = none :: later ∧
        (forest.occupy place call.target).fill calls = some (later, after) := by
  constructor
  · intro filled
    rw [fill] at filled
    split at filled
    · next former linked vacant made =>
      obtain ⟨rfl, place, fits, rfl⟩ := LinkCall.fits_iff.mp ⟨vacant, made⟩
      obtain ⟨⟨later, _⟩, rest, ends⟩ := Option.map_eq_some_iff.mp filled
      cases ends
      exact ⟨place, later, fits, rfl, rest⟩
    · cases filled
  · rintro ⟨place, later, fits, rfl, rest⟩
    obtain ⟨vacant, made⟩ := LinkCall.fits_iff.mpr ⟨rfl, place, fits, rfl⟩
    rw [fill, vacant, made]
    simp only [rest, Option.map_some]

/-- Links that fill empty positions free no node. -/
theorem formers_of_fill (filled : forest.fill calls = some (formers, after)) :
    formers = List.replicate calls.length none := by
  induction calls generalizing forest formers with
  | nil =>
    cases filled
    rfl
  | cons call rest ih =>
    obtain ⟨place, later, -, rfl, behind⟩ := fill_cons_iff.mp filled
    exact congrArg (none :: ·) (ih behind)

/-- Links that fill empty positions fill them in any order. -/
theorem fill_perm (sound : forest.Sound) (filled : forest.fill calls = some (formers, after))
    (reordered : calls.Perm others) : forest.fill others = some (formers, after) := by
  induction reordered generalizing forest formers with
  | nil => exact filled
  | cons call _ ih =>
    obtain ⟨place, later, fits, rfl, rest⟩ := fill_cons_iff.mp filled
    exact fill_cons_iff.mpr ⟨place, later, fits, rfl, ih (sound.occupy fits.admits) rest⟩
  | swap later earlier rest =>
    obtain ⟨first, formers, fits, rfl, behind⟩ := fill_cons_iff.mp filled
    obtain ⟨second, formers, fits', rfl, last⟩ := fill_cons_iff.mp behind
    obtain ⟨laterFits, earlierFits, same⟩ := fits.swap sound fits'
    rw [same] at last
    have behind := fill_cons_iff.mpr ⟨first, formers, earlierFits, rfl, last⟩
    exact fill_cons_iff.mpr ⟨second, none :: formers, laterFits, rfl, behind⟩
  | trans _ _ ih ih' => exact ih' sound (ih sound filled)

end Forest

namespace Script.Workbench

/-- On a forest that a script has built, links that succeed one after the other and each fill an
empty position can be made in any order: every one of them succeeds, on a position that is empty then
as well, none yields a former node, and they end in the same forest. -/
theorem links_in_any_order (status : Status) (steps : List ForestStep) {calls others : List LinkCall}
    {formers : List (Option NodeId)} {after : Forest}
    (filled : ((start status).run steps).2.forest.fill calls = some (formers, after))
    (reordered : calls.Perm others) :
    ((start status).run steps).2.forest.fill others =
      some (List.replicate others.length none, after) := by
  have sound : ((start status).run steps).2.forest.Sound := sound_run .empty steps
  have refilled := Forest.fill_perm sound filled reordered
  rw [refilled, Forest.formers_of_fill refilled]

/-- A branch that is linked from above, and then to a node behind it that holds another one. -/
theorem links_in_any_order_branch :
    let made := List.replicate 4 (ForestStep.make (.statement .compound) none)
    let forest := ((start {}).run made).2.forest
    let calls := [LinkCall.child ⟨0⟩ 1 ⟨1⟩, .next ⟨1⟩ ⟨2⟩, .child ⟨2⟩ 0 ⟨3⟩]
    ∃ after, forest.fill calls = some ([none, none, none], after) ∧ calls.Perm calls.reverse ∧
      forest.fill calls.reverse = some ([none, none, none], after) := by
  intro made forest calls
  have yields : (forest.fill calls).map Prod.fst = some [none, none, none] := by decide
  obtain ⟨⟨_, after⟩, filled, rfl⟩ := Option.map_eq_some_iff.mp yields
  have reordered : calls.Perm calls.reverse := by decide
  exact ⟨after, filled, reordered, links_in_any_order {} made filled reordered⟩

end Script.Workbench

end FrontEnd
