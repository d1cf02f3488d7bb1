import FrontEnd.Proofs.Forest.Concatenation
import FrontEnd.Proofs.Forest.Traversal

/-! # Outlines of appended chains

The one link that an append makes starts at the last node of a chain, and a traversal of that chain
meets it at its very end: nothing below the nodes of the chain leads there. So the outline goes on
with that of the new node, and an outline that does not show the last node stays as it is.
-/

namespace FrontEnd

open Relation

namespace Forest

/-- The nodes that the outline of a chain shows. -/
def shown (forest : Forest) (start : NodeId) : List NodeId :=
  (Rose.preorderAll 1 (forest.roses (some start))).map Prod.snd

variable {forest : Forest}

/-! ### Nodes after a link -/

section

variable (place : Place) (target id : NodeId) (node : Node)

/-- A link changes neither the kind of a node nor its payload. -/
theorem label_relinked :
    (forest.relinked place target id node).kind = node.kind ∧
      (forest.relinked place target id node).payload = node.payload := by
  have held : (node.hold place.side target).kind = node.kind ∧
      (node.hold place.side target).payload = node.payload := by
    obtain ⟨_, side⟩ := place
    cases side <;> exact ⟨rfl, rfl⟩
  unfold relinked
  dsimp only
  split_ifs <;> first | exact held | exact ⟨rfl, rfl⟩

theorem link_relinked (side : Side) :
    (forest.relinked place target id node).link side =
      if id = place.holder ∧ side = place.side then some target else node.link side := by
  have owned (kept : Node) (owner : Option NodeId) :
      ({ kept with owner } : Node).link side = kept.link side := by
    cases side <;> rfl
  have held : (if id = place.holder then node.hold place.side target else node).link side =
      if id = place.holder ∧ side = place.side then some target else node.link side := by
    by_cases holds : id = place.holder
    · simp only [holds, ↓reduceIte, true_and, Node.link_hold]
    · simp only [holds, ↓reduceIte, false_and]
  unfold relinked
  dsimp only
  split_ifs at held ⊢ <;> simp_all

/-- A node that is not the holder looks the same after a link is made. -/
theorem resembles_relinked (other : id ≠ place.holder) :
    (forest.relinked place target id node).Resembles node where
  kind := (label_relinked place target id node).1
  payload := (label_relinked place target id node).2
  link side := by rw [link_relinked, if_neg fun same => other same.1]

end

theorem blockOf_occupy (place : Place) (target : NodeId) :
    (forest.occupy place target).blockOf = forest.blockOf := by
  funext id
  rw [blockOf, blockOf, node?_occupy, Option.map_map]
  congr 2
  funext node
  obtain ⟨kind, payload⟩ := @label_relinked forest place target id node
  simp only [Function.comp_apply, Node.block, kind, payload]

/-- A forest in which another node gets a link has all nodes of a chain that does not show it. -/
theorem twins_occupy {place : Place} {target : NodeId} {ids : List NodeId}
    (apart : place.holder ∉ ids) :
    ∀ id ∈ ids, ∀ node, forest.node? id = some node →
      ∃ twin, (forest.occupy place target).node? id = some twin ∧ twin.Resembles node := by
  intro id member node found
  refine ⟨forest.relinked place target id node, by rw [node?_occupy, found, Option.map_some], ?_⟩
  exact resembles_relinked place target id node fun same => apart (same ▸ member)

/-! ### Unfolding through the new link -/

namespace Sound

variable (sound : forest.Sound)

include sound

/-- An outline that does not show the holder of a new link stays as it is. -/
theorem outlineFrom_occupy {place : Place} {target start : NodeId} (present : forest.has start)
    (apart : place.holder ∉ forest.shown start) :
    (forest.occupy place target).outlineFrom (some start) = forest.outlineFrom (some start) :=
  sound.outlineFrom_congr present (twins_occupy apart)

/-- What is in a child slot has nothing to do with the nodes that follow. -/
theorem last_not_below {id last : NodeId} {slot : Fin slotCount} {base : Nat}
    {trees : List (Rose NodeId)} (path : ReflTransGen (Leads forest.sibling?) id last)
    (unfolds : forest.Unfolds (forest.link? ⟨id, .child slot⟩) trees) :
    last ∉ (Rose.preorderAll base trees).map Prod.snd := by
  intro member
  obtain ⟨target, held, below⟩ := sound.reaches_of_mem_preorderAll unfolds member
  have owned : forest.Owned target id := sound.owner_iff.mpr ⟨_, held⟩
  obtain rfl | ⟨next, link, further⟩ := ReflTransGen.cases_head path
  · exact sound.owners_end.not_circular id (TransGen.tail' below owned)
  · have behind : ReflTransGen forest.Owned last next :=
      sound.reaches_iff.mp (ReflTransGen.mono (fun _ _ link => ⟨.next, link⟩) _ _ further)
    cases sound.held_apart held (show forest.link? ⟨id, .next⟩ = some next from link) below behind

/-- Once the last node of a chain has a next one, the chain unfolds into the trees that it had and
those of the new node. -/
theorem unfolds_occupy {first last node : NodeId} {trees others : List (Rose NodeId)}
    (unfolds : forest.Unfolds (some first) trees)
    (path : ReflTransGen (Leads forest.sibling?) first last) (final : forest.sibling? last = none)
    (further : (forest.occupy ⟨last, .next⟩ node).Unfolds (some node) others) :
    (forest.occupy ⟨last, .next⟩ node).Unfolds (some first) (trees ++ others) := by
  generalize starts : some first = start at unfolds
  induction unfolds generalizing first with
  | nil => cases starts
  | @cons id holder branches rest found below behind _ ih =>
    obtain rfl : first = id := Option.some.inj starts
    have link := link?_of_found found
    have here : (forest.occupy ⟨last, .next⟩ node).node? first =
        some (forest.relinked ⟨last, .next⟩ node first holder) := by
      rw [node?_occupy, found, Option.map_some]
    refine .cons here (fun slot => ?_) ?_
    · rw [link_relinked, if_neg (by simp)]
      have under := below slot
      rw [← link] at under
      have apart : last ∉ (Rose.preorderAll 1 (branches slot)).map Prod.snd :=
        sound.last_not_below path under
      rw [← link]
      exact under.transfer (twins_occupy apart)
    · rw [link_relinked]
      obtain rfl | ⟨next, leads, later⟩ := ReflTransGen.cases_head path
      · have ends : holder.link .next = none := by rw [← link]; exact final
        rw [ends] at behind
        cases behind
        rwa [if_pos ⟨rfl, rfl⟩]
      · have apart : first ≠ last := by
          rintro rfl
          rw [Leads, final] at leads
          cases leads
        have goes : holder.link .next = some next := by rw [← link]; exact leads
        rw [if_neg fun same => apart same.1]
        exact ih later goes.symm

/-- An append that is made puts the node behind the last one of the chain. -/
theorem append_eq_occupy {head node : NodeId} {after : Forest}
    (made : forest.append head node = .ok after) :
    ∃ last, forest.has head ∧ (forest.chain (some head)).getLast? = some last ∧
      forest.Admits ⟨last, .next⟩ node ∧ after = forest.occupy ⟨last, .next⟩ node := by
  obtain ⟨⟨former, _⟩, linked, rfl⟩ := exists_of_map_eq_ok made
  by_cases present : forest.has head
  · obtain ⟨last, ends, _, _, vacant⟩ := sound.exists_last present
    have start : (forest.chain (some head)).getLastD head = last := by
      rw [List.getLastD_eq_getLast?, ends]
      rfl
    rw [start] at linked
    obtain ⟨same, _⟩ | ⟨admits, _, rfl⟩ := attach_ok_cases linked
    · rw [show forest.link? ⟨last, .next⟩ = none from vacant] at same
      cases same
    · exact ⟨last, present, ends, admits, rfl⟩
  · -- A handle that has no node leads nowhere, so it is taken for the last of its own chain.
    have unknown : forest.sibling? head = none := by
      cases found : forest.node? head with
      | none => rw [sibling?, found, Option.bind_none]
      | some holder => exact absurd (forest.has_iff.mpr ⟨holder, found⟩) present
    have start : (forest.chain (some head)).getLastD head = head := by
      rw [chain]
      cases forest.size with
      | zero => rfl
      | succ size => rw [follow, unknown, follow_none]; rfl
    rw [start, attachNext, Forest.attach, if_pos (by simpa using present)] at linked
    cases linked

end Sound

/-- What the outlines of a forest are once a node is appended to a chain whose last node is known. -/
structure Appended (forest : Forest) (head last node : NodeId) (after : Forest) : Prop where
  /-- The outline of the chain goes on with that of the node. -/
  chain : after.outlineFrom (some head) =
    forest.outlineFrom (some head) ++ forest.outlineFrom (some node)
  appended : after.outlineFrom (some node) = forest.outlineFrom (some node)
  whole : forest.root = some head →
    after.outline = forest.outline ++ forest.outlineFrom (some node)
  /-- What does not show the last node of the chain stays as it is. -/
  elsewhere : ∀ start, forest.has start → last ∉ forest.shown start →
    after.outlineFrom (some start) = forest.outlineFrom (some start)

namespace Sound

variable (sound : forest.Sound)

include sound

theorem appended {head last node : NodeId} (present : forest.has head)
    (ends : (forest.chain (some head)).getLast? = some last)
    (admits : forest.Admits ⟨last, .next⟩ node) :
    forest.Appended head last node (forest.occupy ⟨last, .next⟩ node) := by
  have unfolds {id : NodeId} (present : forest.has id) :
      forest.Unfolds (some id) (forest.roses (some id)) :=
    sound.unfolds_roses fun _ same => Option.some.inj same ▸ present
  have after := sound.occupy admits
  -- The node is not above the last one of the chain, so its own outline does not show that one.
  have apart : last ∉ forest.shown node := by
    intro member
    have below := (sound.mem_visited_iff (unfolds admits.target_exists)).mp member
    exact admits.not_above ((sound.mem_lineage_iff admits.holder_exists).mpr below)
  have further : (forest.occupy ⟨last, .next⟩ node).Unfolds (some node) (forest.roses (some node)) :=
    (unfolds admits.target_exists).transfer (twins_occupy apart)
  obtain ⟨path, final⟩ := (sound.passes_chain present).getLast?_eq_some_iff.mp ends
  have joined := sound.unfolds_occupy (unfolds present) path final further
  have roses : (forest.occupy ⟨last, .next⟩ node).roses (some head) =
      forest.roses (some head) ++ forest.roses (some node) := by
    refine (after.unfolds_roses fun id same => ?_).unique joined
    cases same
    rwa [has_occupy]
  have chain : (forest.occupy ⟨last, .next⟩ node).outlineFrom (some head) =
      forest.outlineFrom (some head) ++ forest.outlineFrom (some node) := by
    rw [outlineFrom, blocks, roses, blockOf_occupy, Rose.mapAll_eq_map, List.map_append,
      Rose.outlineAll_append, ← Rose.mapAll_eq_map, ← Rose.mapAll_eq_map]
    rfl
  refine ⟨chain, sound.outlineFrom_occupy admits.target_exists apart, fun root => ?_,
    fun start present other => sound.outlineFrom_occupy present other⟩
  rw [outline, outline, root_occupy, root, chain]

end Sound

end Forest

namespace Script.Workbench

open Forest

/-- In every forest that a script builds, an append that is made puts the outline of the node behind
that of the chain, and every outline that does not show the last node of the chain stays the same. -/
theorem outline_of_append (status : Status) (steps : List ForestStep) {head node : NodeId}
    {after : Forest} (made : ((start status).run steps).2.forest.append head node = .ok after) :
    let forest := ((start status).run steps).2.forest
    ∃ last, (forest.chain (some head)).getLast? = some last ∧
      forest.Appended head last node after := by
  intro forest
  have sound : forest.Sound := sound_run .empty steps
  obtain ⟨last, present, ends, admits, rfl⟩ := sound.append_eq_occupy made
  exact ⟨last, ends, sound.appended present ends admits⟩

/-- A node with a branch is put behind a chain of two below a third node, which another node holds. -/
theorem outline_of_append_branch :
    let steps := List.replicate 6 (ForestStep.make (.statement .compound) none) ++
      [.attachChild ⟨5⟩ 1 ⟨4⟩, .attachChild ⟨4⟩ 0 ⟨0⟩, .attachNext ⟨0⟩ ⟨1⟩, .attachChild ⟨2⟩ 0 ⟨3⟩]
    let forest := ((start {}).run steps).2.forest
    ∃ after, forest.append ⟨0⟩ ⟨2⟩ = .ok after ∧
      ∃ last, (forest.chain (some ⟨0⟩)).getLast? = some last ∧
        forest.Appended ⟨0⟩ last ⟨2⟩ after := by
  intro steps forest
  obtain ⟨after, made⟩ : ∃ after, forest.append ⟨0⟩ ⟨2⟩ = .ok after := ⟨_, rfl⟩
  exact ⟨after, made, outline_of_append {} steps made⟩

end Script.Workbench

end FrontEnd
