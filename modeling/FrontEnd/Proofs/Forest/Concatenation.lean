import FrontEnd.Proofs.Forest.Append
import FrontEnd.Proofs.Forest.Refusal
import FrontEnd.Proofs.Forest.Unfolding

/-! # Appending to chains

To append a node is to link it behind the last node of a chain. That node holds no next one, so
nothing is set free, and the topmost owner above it is the one above the start of the chain. A node
that is appended brings the chain behind it along: both chains are walked to their ends, and the
walk through the first goes on where the second starts.
-/

namespace FrontEnd

open Relation

namespace Forest

variable {forest : Forest}

/-- The nodes of a chain are below its start. -/
theorem reaches_of_mem_chain {head id : NodeId} (member : id ∈ forest.chain (some head)) :
    ReflTransGen forest.Holds head id :=
  ReflTransGen.mono (fun _ _ link => ⟨.next, link⟩) _ _ (reaches_of_mem_follow member)

namespace Sound

variable (sound : forest.Sound)

include sound

/-- The chain behind a node comes to an end. -/
theorem siblings_end : forest.Ends forest.sibling? where
  grounded := Subrelation.wf (fun link => sound.holds_iff.mp ⟨.next, link⟩) sound.descending
  stays {node _} link := sound.target_exists (show forest.link? ⟨node, .next⟩ = _ from link)

/-- A chain goes on until a node has no next one. -/
theorem passes_chain {head : NodeId} (present : forest.has head) :
    Passes forest.sibling? (some head) (forest.chain (some head)) :=
  sound.siblings_end.passes_follow present

theorem exists_last {head : NodeId} (present : forest.has head) :
    ∃ last, (forest.chain (some head)).getLast? = some last ∧ forest.has last ∧
      ReflTransGen forest.Holds head last ∧ forest.sibling? last = none := by
  obtain ⟨last, path, final⟩ := sound.siblings_end.exists_last head
  have ends := (sound.passes_chain present).getLast?_eq_some_iff.mpr ⟨path, final⟩
  have member := List.mem_of_getLast? ends
  exact ⟨last, ends, sound.has_of_mem_chain present member, reaches_of_mem_chain member, final⟩

/-- Nodes that are below one another have the same topmost owner. -/
theorem topmost_eq {above below : NodeId} (present : forest.has above) (present' : forest.has below)
    (path : ReflTransGen forest.Holds above below) :
    (forest.lineage below).getLast? = (forest.lineage above).getLast? := by
  have upwards := sound.reaches_iff.mp path
  have unique : Relator.RightUnique forest.Owned :=
    fun _ _ _ left right => Option.some.inj (left.symm.trans right)
  ext top
  rw [sound.getLast?_lineage_iff present, sound.getLast?_lineage_iff present']
  constructor
  · rintro ⟨further, free⟩
    refine ⟨?_, free⟩
    obtain later | earlier := upwards.total_of_right_unique unique further
    · exact later
    · obtain rfl | ⟨_, owned, _⟩ := ReflTransGen.cases_head earlier
      · exact .refl
      · rw [owned_iff, free] at owned
        cases owned
  · rintro ⟨further, free⟩
    exact ⟨upwards.trans further, free⟩

/-- Putting a node behind the last one of a chain puts its chain behind the other. -/
theorem chain_occupy {head last node : NodeId} (present : forest.has head)
    (ends : (forest.chain (some head)).getLast? = some last)
    (admits : forest.Admits ⟨last, .next⟩ node) :
    (forest.occupy ⟨last, .next⟩ node).chain (some head) =
      forest.chain (some head) ++ forest.chain (some node) := by
  have leads (id : NodeId) : (forest.occupy ⟨last, .next⟩ node).sibling? id =
      if id = last then some node else forest.sibling? id := by
    have link := forest.link?_occupy ⟨last, .next⟩ node admits.holder_exists ⟨id, .next⟩
    simp only [Place.mk.injEq, and_true] at link
    exact link
  -- The last node is in no chain that starts below it, since the new node is not above it.
  have further : Passes (forest.occupy ⟨last, .next⟩ node).sibling? (some node)
      (forest.chain (some node)) := by
    refine (sound.passes_chain admits.target_exists).congr fun id member => ?_
    rw [leads, if_neg]
    rintro rfl
    apply admits.not_above
    rw [sound.mem_lineage_iff admits.holder_exists, ← sound.reaches_iff]
    exact reaches_of_mem_chain member
  have whole := (sound.passes_chain present).append ends leads further
  have present' : (forest.occupy ⟨last, .next⟩ node).has head := by rwa [has_occupy]
  exact ((sound.occupy admits).passes_chain present').unique whole

end Sound

end Forest

namespace Script.Workbench

open Forest

/-- How a call that is to append a node to a chain is answered, and what it leaves. -/
structure Appends (bench : Workbench) (head node : NodeId) (outcome : ForestAnswer × Workbench) :
    Prop where
  owned : outcome.1 = .refused (.alreadyOwned node) ↔
    bench.forest.owner? node ≠ none ∨ bench.forest.root = some node
  /-- A node that the chain leads to is owned, be it the last one. -/
  listed : node ∈ bench.forest.chain (some head) → node ≠ head →
    outcome.1 = .refused (.alreadyOwned node)
  cycle : bench.forest.owner? node = none → bench.forest.root ≠ some node →
    (outcome.1 = .refused (.cycle node) ↔
      (bench.forest.lineage head).getLast? = some node)
  /-- Otherwise the chain goes on with that of the node. Only the last node of the chain, which had
  no next one, and the owner of the new one are changed. -/
  appended : bench.forest.owner? node = none → bench.forest.root ≠ some node →
    (bench.forest.lineage head).getLast? ≠ some node →
    ∃ last after, outcome = (.linked none, { bench with forest := after }) ∧
      after.chain (some head) = bench.forest.chain (some head) ++ bench.forest.chain (some node) ∧
      (bench.forest.chain (some head)).getLast? = some last ∧
      bench.forest.sibling? last = none ∧ bench.forest.Relinks ⟨last, .next⟩ node after
  refused : ∀ reason, outcome.1 = .refused reason → outcome.2 = bench

/-- To append a node is to link it behind the last node of the chain. -/
theorem step_append {bench : Workbench} {head last node : NodeId}
    (ends : (bench.forest.chain (some head)).getLast? = some last)
    (vacant : bench.forest.sibling? last = none) :
    bench.step (.append head node) = bench.settle (bench.forest.attach ⟨last, .next⟩ node) := by
  have start : (bench.forest.chain (some head)).getLastD head = last := by
    rw [List.getLastD_eq_getLast?, ends]
    rfl
  change bench.settle ((bench.forest.append head node).map (none, ·)) = _
  rw [append, start, attachNext]
  cases made : bench.forest.attach ⟨last, .next⟩ node with
  | error reason => rfl
  | ok linked =>
    obtain ⟨former, after⟩ := linked
    obtain ⟨-, rfl, -⟩ | ⟨-, yields, -⟩ := attach_ok_cases made
    · rfl
    · obtain rfl : former = none := yields.trans vacant
      rfl

/-- On every forest that a script has built, a node is appended to a chain unless it has an owner or
is the root, or is the topmost owner above the chain. The chain of the node then stands behind the
other one, and nothing but that link is changed. A refusal changes nothing. -/
theorem append_concatenates (status : Status) (steps : List ForestStep) {head node : NodeId}
    (present : ((start status).run steps).2.forest.has head)
    (targeted : ((start status).run steps).2.forest.has node) :
    let bench := ((start status).run steps).2
    bench.Appends head node (bench.step (.append head node)) := by
  intro bench
  have sound : bench.forest.Sound := sound_run .empty steps
  obtain ⟨last, ends, holder, path, vacant⟩ := sound.exists_last present
  have decides : bench.Decides ⟨last, .next⟩ node (bench.step (.append head node)) := by
    rw [step_append ends vacant]
    exact decides_attach sound holder targeted
  have other : bench.forest.link? ⟨last, .next⟩ ≠ some node := by
    rw [show bench.forest.link? ⟨last, .next⟩ = none from vacant]
    nofun
  have topmost : (bench.forest.lineage last).getLast? = (bench.forest.lineage head).getLast? :=
    sound.topmost_eq present holder path
  have free (unowned : bench.forest.owner? node = none) (notRoot : bench.forest.root ≠ some node) :
      ¬ bench.forest.Taken node := by
    rw [sound.taken_iff]
    simp [unowned, notRoot]
  constructor
  case owned => rw [decides.owned other, sound.taken_iff]
  case listed =>
    intro member apart
    rw [decides.owned other]
    obtain same | ⟨before, _, link⟩ :=
      (ReflTransGen.cases_tail_iff _ _ _).mp (reaches_of_mem_follow member)
    · exact absurd same apart
    · exact .inl ⟨before, .next, link⟩
  case cycle =>
    intro unowned notRoot
    rw [decides.cycle other (free unowned notRoot), decides.topmost (free unowned notRoot), topmost]
  case appended =>
    intro unowned notRoot below
    have apart : ¬ ReflTransGen bench.forest.Holds node last := by
      rwa [decides.topmost (free unowned notRoot), topmost]
    obtain ⟨after, answered, relinks⟩ := decides.linked other (free unowned notRoot) apart
    have admits : bench.forest.Admits ⟨last, .next⟩ node := by
      refine ⟨holder, targeted, unowned, notRoot, ?_⟩
      rwa [sound.mem_lineage_iff holder, ← sound.reaches_iff]
    rw [show bench.forest.link? ⟨last, .next⟩ = none from vacant] at answered
    refine ⟨last, after, answered, ?_, ends, vacant, relinks⟩
    rw [relinks.eq_occupy]
    exact sound.chain_occupy present ends admits
  case refused => exact decides.refused

/-- A chain of two nodes below a third one takes in another chain of two. -/
theorem append_concatenates_twoChains :
    let steps := List.replicate 5 (ForestStep.make (.statement .compound) none) ++
      [.attachChild ⟨4⟩ 0 ⟨0⟩, .attachNext ⟨0⟩ ⟨1⟩, .attachNext ⟨2⟩ ⟨3⟩]
    let bench := ((start {}).run steps).2
    bench.forest.has ⟨0⟩ ∧ bench.forest.has ⟨2⟩ ∧
      ∃ after, bench.step (.append ⟨0⟩ ⟨2⟩) = (.linked none, { bench with forest := after }) ∧
        after.chain (some ⟨0⟩) = [⟨0⟩, ⟨1⟩, ⟨2⟩, ⟨3⟩] := by
  intro steps bench
  have present : bench.forest.has ⟨0⟩ := by decide
  have targeted : bench.forest.has ⟨2⟩ := by decide
  have appends := append_concatenates {} steps present targeted
  obtain ⟨last, after, answered, joined, -⟩ :=
    appends.appended (by decide) (by decide) (by decide)
  exact ⟨present, targeted, after, answered, joined.trans (by decide)⟩

end Script.Workbench

end FrontEnd
