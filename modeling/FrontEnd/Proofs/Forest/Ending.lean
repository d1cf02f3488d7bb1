import FrontEnd.Proofs.Forest.Concatenation

/-! # Walks that end

Nothing bounds the walks over a forest but the forest itself: the walk up along owners that looks for
a node, the walk along a chain, and the walk down that shows a chain with all that is below it. In a
sound forest none of them meets a node twice, so each ends after as many nodes as there are. Links
that would lead a walk in a circle are refused: a node is put neither below itself nor behind the end
of its own chain. A refusal leaves the forest as it is, so the walks end after it as well.
-/

namespace FrontEnd

open Relation

namespace Forest

variable {forest : Forest}

/-- A walk that comes to its end, meets no node twice and has no more nodes than the forest. -/
structure Once (forest : Forest) (next : NodeId → Option NodeId) (start : NodeId) (ids : List NodeId) :
    Prop where
  passes : Passes next (some start) ids
  distinct : ids.Nodup
  bounded : ids.length ≤ forest.size

theorem Ends.once {next : NodeId → Option NodeId} (ends : forest.Ends next) {start : NodeId}
    (present : forest.has start) : forest.Once next start (follow next forest.size (some start)) where
  passes := ends.passes_follow present
  distinct := ends.nodup_follow _ _
  bounded := ends.length_follow_le present _

/-- Where the search for a node goes on: up to the owner, unless the node has been found. -/
def upwards (forest : Forest) (target id : NodeId) : Option NodeId :=
  if id = target then none else forest.owner? id

theorem leads_of_upwards {target here there : NodeId} (lead : Leads (forest.upwards target) here there) :
    forest.Owned here there := by
  rw [Leads, upwards] at lead
  split_ifs at lead
  exact lead

/-- Whichever of two nodes comes first in a chain, both come before its end. -/
theorem reaches_last {head node : NodeId}
    (together : node ∈ forest.chain (some head) ∨ head ∈ forest.chain (some node)) {last : NodeId}
    (path : ReflTransGen (Leads forest.sibling?) head last) (final : forest.sibling? last = none) :
    ReflTransGen forest.Holds node last := by
  have unique : Relator.RightUnique (Leads forest.sibling?) :=
    fun _ _ _ left right => Option.some.inj (left.symm.trans right)
  have along : ReflTransGen (Leads forest.sibling?) node last := by
    obtain behind | before := together
    · obtain later | earlier := (reaches_of_mem_follow behind).total_of_right_unique unique path
      · exact later
      · obtain rfl | ⟨_, lead, -⟩ := ReflTransGen.cases_head earlier
        · exact .refl
        · rw [Leads, final] at lead
          cases lead
    · exact (reaches_of_mem_follow before).trans path
  exact ReflTransGen.mono (fun _ _ link => ⟨.next, link⟩) _ _ along

/-- Every walk over a forest ends. -/
structure Walkable (forest : Forest) : Prop where
  owners {id : NodeId} (present : forest.has id) : forest.Once forest.owner? id (forest.lineage id)
  /-- The search for a node among the owners ends, whether it is found or not. -/
  search {id : NodeId} (present : forest.has id) (target : NodeId) :
    ∃ met, forest.Once (forest.upwards target) id met ∧ (target ∈ met ↔ target ∈ forest.lineage id)
  siblings {id : NodeId} (present : forest.has id) :
    forest.Once forest.sibling? id (forest.chain (some id))
  /-- Of a chain, each node is shown, with what is below it, in front of those behind it. -/
  shown {start : Option NodeId} (present : ∀ id, start = some id → forest.has id) :
    let ids := (Rose.preorderAll 0 (forest.roses start)).map Prod.snd
    forest.Unfolds start (forest.roses start) ∧ ids.Nodup ∧ ids.length ≤ forest.size

namespace Sound

variable (sound : forest.Sound)

include sound

theorem upwards_ends (target : NodeId) : forest.Ends (forest.upwards target) where
  grounded := Subrelation.wf leads_of_upwards sound.grounded
  stays lead := sound.owner_exists (leads_of_upwards lead)

/-- A search finds a node just if it is among the owners. -/
theorem found_iff {id : NodeId} (present : forest.has id) (target : NodeId) :
    target ∈ follow (forest.upwards target) forest.size (some id) ↔ target ∈ forest.lineage id := by
  rw [(sound.upwards_ends target).mem_follow_iff present, sound.mem_lineage_iff present]
  constructor
  · exact ReflTransGen.mono (fun _ _ lead => leads_of_upwards lead) _ _
  · -- Up to the node that is looked for, the search goes where the owners lead.
    intro path
    clear present
    induction path using ReflTransGen.head_induction_on with
    | refl => exact .refl
    | @head here there owned _ ih =>
      by_cases found : here = target
      · rw [found]
      · refine .head ?_ ih
        rw [Leads, upwards, if_neg found]
        exact owned

theorem walkable : forest.Walkable where
  owners := sound.owners_end.once
  search present target := ⟨_, (sound.upwards_ends target).once present, sound.found_iff present target⟩
  siblings := sound.siblings_end.once
  shown present := by
    intro ids
    have unfolds := sound.unfolds_roses present
    refine ⟨unfolds, sound.nodup_preorderAll unfolds 0, ?_⟩
    rw [List.length_map]
    exact sound.length_preorderAll_le present unfolds 0

/-! ### Links that would run in a circle -/

/-- A node is not put below itself. -/
theorem attach_of_below {place : Place} {target : NodeId}
    (below : ReflTransGen forest.Holds target place.holder) :
    ∃ reason, forest.attach place target = .error reason := by
  cases made : forest.attach place target with
  | error reason => exact ⟨reason, rfl⟩
  | ok linked =>
    obtain ⟨former, after⟩ := linked
    -- A link that was there before would close a circle, and the place has no node below the target
    -- as its holder if it admits the target.
    obtain ⟨same, -⟩ | ⟨admits, -⟩ := attach_ok_cases made
    · exact absurd (TransGen.tail' below ⟨place.side, same⟩) (sound.not_below_itself target)
    · exact absurd ((sound.mem_lineage_iff admits.holder_exists).mpr (sound.reaches_iff.mp below))
        admits.not_above

/-- A node that is below another one is not put there again. -/
theorem attach_of_above {place : Place} {target : NodeId}
    (above : TransGen forest.Holds place.holder target) :
    (∃ reason, forest.attach place target = .error reason) ∨
      forest.attach place target = .ok (none, forest) := by
  cases made : forest.attach place target with
  | error reason => exact .inl ⟨reason, rfl⟩
  | ok linked =>
    obtain ⟨former, after⟩ := linked
    obtain ⟨-, rfl, rfl⟩ | ⟨admits, -⟩ := attach_ok_cases made
    · exact .inr rfl
    · obtain ⟨holder, -, side, held⟩ := TransGen.tail'_iff.mp above
      exact absurd held (sound.link?_ne_of_free admits.free ⟨holder, side⟩)

/-- A node is not put behind the end of its own chain. -/
theorem append_of_together {head node : NodeId} (present : forest.has head)
    (together : node ∈ forest.chain (some head) ∨ head ∈ forest.chain (some node)) :
    ∃ reason, forest.append head node = .error reason := by
  obtain ⟨last, path, final⟩ := sound.siblings_end.exists_last head
  have ends : (forest.chain (some head)).getLast? = some last :=
    (sound.passes_chain present).getLast?_eq_some_iff.mpr ⟨path, final⟩
  have below : ReflTransGen forest.Holds node (Place.mk last .next).holder :=
    reaches_last together path final
  obtain ⟨reason, refused⟩ := sound.attach_of_below below
  refine ⟨reason, ?_⟩
  rw [Forest.append, List.getLastD_eq_getLast?, ends]
  exact congrArg (Except.map Prod.snd) refused

end Sound

end Forest

namespace Script.Workbench

open Forest

theorem settle_refused {bench : Workbench} {result : Except LinkError (Option NodeId × Forest)}
    {reason : LinkError} (refused : (bench.settle result).1 = .refused reason) :
    (bench.settle result).2 = bench := by
  cases result with
  | error => rfl
  | ok => cases refused

theorem withNode_refused {bench : Workbench} {id : NodeId} {use : Node → ForestAnswer × Workbench}
    {reason : LinkError} (accepts : ∀ node, (use node).1 ≠ .refused reason)
    (refused : (bench.withNode id use).1 = .refused reason) : (bench.withNode id use).2 = bench := by
  unfold withNode at refused ⊢
  split
  · rfl
  · next found =>
    rw [found] at refused
    exact absurd refused (accepts _)

/-- A step that is refused changes nothing. -/
theorem step_refused {bench : Workbench} {step : ForestStep} {reason : LinkError}
    (refused : (bench.step step).1 = .refused reason) : (bench.step step).2 = bench := by
  have used {id : NodeId} {use : Node → ForestAnswer × Workbench}
      (same : bench.step step = bench.withNode id use)
      (accepts : ∀ node, (use node).1 ≠ .refused reason) : (bench.step step).2 = bench := by
    rw [same] at refused ⊢
    exact withNode_refused accepts refused
  have settled {result : Except LinkError (Option NodeId × Forest)}
      (same : bench.step step = bench.settle result) : (bench.step step).2 = bench := by
    rw [same] at refused ⊢
    exact settle_refused refused
  cases step with
  | moveTo | flag | make | outline | inspectAll => cases refused
  | setPayload | setValueType | outlineFrom | child | inspect => exact used rfl fun _ => nofun
  | makeRoot | attachChild | attachNext | append => exact settled rfl
  | chain start =>
    cases start with
    | none => cases refused
    | some id => exact used rfl fun _ => nofun

/-- A step that is refused, whatever the reason. -/
def Refuses (bench : Workbench) (step : ForestStep) : Prop :=
  ∃ reason, bench.step step = (.refused reason, bench)

/-- On every forest that a script has built, all walks end. A step that is refused changes nothing, so
they end after it as well. To put a node below itself, be it directly, further down or behind the end
of its own chain, is refused; to put a node where it is below another one already changes nothing. -/
theorem walks_end (status : Status) (steps : List ForestStep) :
    let bench := ((start status).run steps).2
    bench.forest.Walkable ∧
    (∀ step reason, (bench.step step).1 = .refused reason → (bench.step step).2 = bench) ∧
    (∀ holder target, ReflTransGen bench.forest.Holds target holder →
      (∀ slot, bench.Refuses (.attachChild holder slot target)) ∧
        bench.Refuses (.attachNext holder target)) ∧
    (∀ holder target, TransGen bench.forest.Holds holder target →
      (∀ slot, (bench.step (.attachChild holder slot target)).2 = bench) ∧
        (bench.step (.attachNext holder target)).2 = bench) ∧
    ∀ head node, bench.forest.has head →
      node ∈ bench.forest.chain (some head) ∨ head ∈ bench.forest.chain (some node) →
      bench.Refuses (.append head node) := by
  intro bench
  have sound : bench.forest.Sound := sound_run .empty steps
  have settles {result : Except LinkError (Option NodeId × Forest)}
      (refused : ∃ reason, result = .error reason) :
      ∃ reason, bench.settle result = (.refused reason, bench) := by
    obtain ⟨reason, rfl⟩ := refused
    exact ⟨reason, rfl⟩
  have keeps {result : Except LinkError (Option NodeId × Forest)}
      (kept : (∃ reason, result = .error reason) ∨ result = .ok (none, bench.forest)) :
      (bench.settle result).2 = bench := by
    obtain ⟨reason, rfl⟩ | rfl := kept <;> rfl
  refine ⟨sound.walkable, fun _ _ => step_refused, fun holder target below => ⟨fun slot => ?_, ?_⟩,
    fun holder target above => ⟨fun slot => ?_, ?_⟩, fun head node present together => ?_⟩
  · refine settles ?_
    unfold attachChild
    split
    · exact sound.attach_of_below below
    · exact ⟨_, rfl⟩
  · exact settles (sound.attach_of_below below)
  · refine keeps ?_
    unfold attachChild
    split
    · exact sound.attach_of_above above
    · exact .inl ⟨_, rfl⟩
  · exact keeps (sound.attach_of_above above)
  · obtain ⟨reason, refused⟩ := sound.append_of_together present together
    exact settles ⟨reason, congrArg (Except.map (none, ·)) refused⟩

end Script.Workbench

end FrontEnd
