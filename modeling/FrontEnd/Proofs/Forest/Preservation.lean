import FrontEnd.Proofs.Forest.Ownership
import FrontEnd.Script.ForestStep

/-! # What operations keep of a forest

Making a node and writing into one leave owners and places as they are. A link that is accepted
gives a free node to one holder and sets another node free, and it closes no circle because the
new node is not above its holder. Refused operations change nothing, so every script keeps a
forest sound.
-/

namespace FrontEnd.Forest

open Relation

variable {forest : Forest}

/-! ### When a link is accepted -/

/-- A node that can be put into a place. -/
structure Admits (forest : Forest) (place : Place) (target : NodeId) : Prop where
  holder_exists : forest.has place.holder
  target_exists : forest.has target
  free : forest.owner? target = none
  not_root : forest.root ≠ some target
  not_above : target ∉ forest.lineage place.holder

theorem refusal?_eq_none_iff {holder target : NodeId} :
    forest.refusal? holder target = none ↔
      forest.owner? target = none ∧ forest.root ≠ some target ∧ target ∉ forest.lineage holder := by
  unfold refusal?
  by_cases taken : (forest.owner? target).isSome || forest.root == some target
  · rw [if_pos taken]
    simp only [Bool.or_eq_true, Option.isSome_iff_ne_none, beq_iff_eq] at taken
    simp only [reduceCtorEq, false_iff]
    rintro ⟨free, notRoot, _⟩
    exact taken.elim (· free) notRoot
  · rw [if_neg taken]
    simp only [Bool.or_eq_true, Option.isSome_iff_ne_none, beq_iff_eq, not_or, not_not] at taken
    simp [taken]

/-- A place that admits a node and does not hold it can be given it. -/
theorem Admits.attach_eq {place : Place} {target : NodeId} (admits : forest.Admits place target)
    (other : forest.link? place ≠ some target) :
    forest.attach place target = .ok (forest.link? place, forest.occupy place target) := by
  have accepted : forest.refusal? place.holder target = none :=
    refusal?_eq_none_iff.mpr ⟨admits.free, admits.not_root, admits.not_above⟩
  simp [attach, admits.holder_exists, admits.target_exists, other, accepted]

/-- A link that is made was there before, or puts a node into a place that admits it. -/
theorem attach_ok_cases {place : Place} {target : NodeId} {former : Option NodeId} {after : Forest}
    (linked : forest.attach place target = .ok (former, after)) :
    (forest.link? place = some target ∧ former = none ∧ after = forest) ∨
      (forest.Admits place target ∧ former = forest.link? place ∧
        after = forest.occupy place target) := by
  unfold attach at linked
  split_ifs at linked with holder present same
  · cases linked
    exact .inl ⟨same, rfl, rfl⟩
  · split at linked
    · cases linked
    · next accepted =>
      cases linked
      obtain ⟨free, notRoot, notAbove⟩ := refusal?_eq_none_iff.mp accepted
      exact .inr ⟨⟨by simpa using holder, by simpa using present, free, notRoot, notAbove⟩, rfl, rfl⟩

theorem attachChild_ok {parent child : NodeId} {slot : Nat} {linked : Option NodeId × Forest}
    (made : forest.attachChild parent slot child = .ok linked) :
    ∃ inRange : slot < slotCount, forest.attach ⟨parent, .child ⟨slot, inRange⟩⟩ child = .ok linked := by
  unfold attachChild at made
  split_ifs at made with inRange
  exact ⟨inRange, made⟩

theorem exists_of_map_eq_ok {ε α β : Type} {result : Except ε α} {change : α → β} {value : β}
    (mapped : result.map change = .ok value) : ∃ inner, result = .ok inner ∧ change inner = value := by
  cases result with
  | error fault => cases mapped
  | ok inner =>
    cases mapped
    exact ⟨inner, rfl, rfl⟩

theorem append_ok {head node : NodeId} {after : Forest} (made : forest.append head node = .ok after) :
    ∃ last former, forest.attachNext last node = .ok (former, after) := by
  obtain ⟨⟨former, _⟩, linked, rfl⟩ := exists_of_map_eq_ok made
  exact ⟨_, former, linked⟩

theorem makeRoot_ok_cases {node : NodeId} {after : Forest} (made : forest.makeRoot node = .ok after) :
    after = forest ∨
      (forest.has node ∧ forest.owner? node = none ∧ after = { forest with root := some node }) := by
  unfold makeRoot at made
  split_ifs at made with present same owned
  · cases made
    exact .inl rfl
  · cases made
    exact .inr ⟨by simpa using present, by simpa using owned, rfl⟩

namespace Sound

/-! ### Operations that make no link -/

theorem empty : Forest.empty.Sound where
  owner_iff := by simp [owner?, link?]
  place_unique := by simp [link?]
  target_exists := by simp [link?]
  root_exists := by simp [Forest.empty]
  root_free := by simp [Forest.empty]
  grounded := ⟨fun _ => .intro _ fun _ owned => by simp [Leads, owner?] at owned⟩

/-- Forests with the same owners and places are sound together. -/
theorem transfer {before after : Forest} (sound : before.Sound)
    (owners : after.owner? = before.owner?) (places : after.link? = before.link?)
    (kept : ∀ id, before.has id → after.has id)
    (root : ∀ id, after.root = some id → after.has id ∧ before.owner? id = none) : after.Sound where
  owner_iff := by
    rw [owners, places]
    exact sound.owner_iff
  place_unique := by
    rw [places]
    exact sound.place_unique
  target_exists held := kept _ (sound.target_exists (by rwa [places] at held))
  root_exists start := (root _ start).1
  root_free start := by
    rw [owners]
    exact (root _ start).2
  grounded := by
    have grounded := sound.grounded
    rwa [Owned, ← owners] at grounded

/-- Forests that differ in nothing but payloads and types are sound together. -/
theorem modify (sound : forest.Sound) (id : NodeId) {change : Node → Node}
    (owner : ∀ node, (change node).owner = node.owner)
    (links : ∀ node side, (change node).link side = node.link side) :
    (forest.modify id change).Sound :=
  sound.transfer (funext fun other => forest.owner?_modify id other owner)
    (funext fun place => forest.link?_modify id place links) (fun other => by simp)
    fun other start => ⟨by simpa using sound.root_exists start, sound.root_free start⟩

theorem setPayload (sound : forest.Sound) (id : NodeId) (payload : Payload) :
    (forest.setPayload id payload).Sound :=
  sound.modify id (fun _ => rfl) fun _ side => by cases side <;> rfl

theorem setValueType (sound : forest.Sound) (id : NodeId) (valueType : ValueType) :
    (forest.setValueType id valueType).Sound :=
  sound.modify id (fun _ => rfl) fun _ side => by cases side <;> rfl

theorem add (sound : forest.Sound) (kind : NodeKind) (line : Nat) :
    (forest.add kind line).2.Sound :=
  sound.transfer (funext fun _ => forest.owner?_add ..) (funext fun _ => forest.link?_add ..)
    (fun id present => by simp [present])
    fun id start => ⟨by simp [sound.root_exists start], sound.root_free start⟩

theorem makeRoot (sound : forest.Sound) {node : NodeId} {after : Forest}
    (made : forest.makeRoot node = .ok after) : after.Sound := by
  obtain rfl | ⟨present, free, rfl⟩ := makeRoot_ok_cases made
  · exact sound
  · refine sound.transfer rfl rfl (fun _ => id) fun other start => ?_
    cases start
    exact ⟨present, free⟩

/-! ### Links -/

/-- A new link closes no circle: the owners above its holder do not pass the new node, and every
other walk upwards either stays what it was or ends in that one. -/
theorem grounded_occupy (sound : forest.Sound) {place : Place} {target : NodeId}
    (admits : forest.Admits place target) :
    WellFounded fun holder held => (forest.occupy place target).Owned held holder := by
  have owner := forest.owner?_occupy place target admits.target_exists
  have before {held holder : NodeId} (other : held ≠ target)
      (owned : (forest.occupy place target).Owned held holder) : forest.Owned held holder := by
    rw [owned_iff, owner, if_neg other] at owned
    split_ifs at owned
    exact owned
  have apart : ∀ id, ReflTransGen forest.Owned place.holder id → id ≠ target := by
    rintro id path rfl
    exact admits.not_above ((sound.mem_lineage_iff admits.holder_exists).mpr path)
  have above : ∀ id, ReflTransGen forest.Owned place.holder id →
      Acc (fun holder held => (forest.occupy place target).Owned held holder) id := by
    intro id
    induction id using sound.grounded.induction with
    | h id ih =>
      intro path
      refine .intro id fun holder owned => ?_
      have link := before (apart id path) owned
      exact ih holder link (path.tail link)
  have fresh : Acc (fun holder held => (forest.occupy place target).Owned held holder) target := by
    refine .intro target fun holder owned => ?_
    rw [owned_iff, owner, if_pos rfl] at owned
    cases owned
    exact above _ .refl
  refine ⟨fun id => ?_⟩
  induction id using sound.grounded.induction with
  | h id ih =>
    by_cases same : id = target
    · rw [same]
      exact fresh
    · exact .intro id fun holder owned => ih holder (before same owned)

theorem occupy (sound : forest.Sound) {place : Place} {target : NodeId}
    (admits : forest.Admits place target) : (forest.occupy place target).Sound := by
  have owner := forest.owner?_occupy place target admits.target_exists
  have link := forest.link?_occupy place target admits.holder_exists
  have nowhere := sound.link?_ne_of_free admits.free
  constructor
  case owner_iff =>
    intro holder held
    rw [owner]
    split_ifs with same former
    · subst same
      constructor
      · rintro ⟨⟩
        exact ⟨place.side, by rw [link, if_pos rfl]⟩
      · rintro ⟨side, taken⟩
        rw [link] at taken
        split_ifs at taken with here
        · rw [← here]
        · exact absurd taken (nowhere _)
    · simp only [false_iff, not_exists]
      intro side taken
      rw [link] at taken
      split_ifs at taken with here
      · exact same (Option.some.inj taken).symm
      · exact here (sound.place_unique taken former)
    · rw [sound.owner_iff]
      refine exists_congr fun side => ?_
      rw [link]
      split_ifs with here
      · rw [here]
        exact ⟨fun taken => absurd taken former, fun taken => absurd (Option.some.inj taken).symm same⟩
      · exact Iff.rfl
  case place_unique =>
    intro first second held atFirst atSecond
    rw [link] at atFirst atSecond
    split_ifs at atFirst atSecond with isFirst isSecond isSecond
    · rw [isFirst, isSecond]
    · cases atFirst
      exact absurd atSecond (nowhere _)
    · cases atSecond
      exact absurd atFirst (nowhere _)
    · exact sound.place_unique atFirst atSecond
  case target_exists =>
    intro other held taken
    rw [link] at taken
    rw [has_occupy]
    split_ifs at taken
    · cases taken
      exact admits.target_exists
    · exact sound.target_exists taken
  case root_exists =>
    intro id start
    rw [has_occupy]
    exact sound.root_exists (by simpa using start)
  case root_free =>
    intro id start
    rw [root_occupy] at start
    have other : id ≠ target := by
      rintro rfl
      exact admits.not_root start
    rw [owner, if_neg other, sound.root_free start, ite_self]
  case grounded => exact sound.grounded_occupy admits

theorem attach (sound : forest.Sound) {place : Place} {target : NodeId} {former : Option NodeId}
    {after : Forest} (linked : forest.attach place target = .ok (former, after)) : after.Sound := by
  obtain ⟨_, _, rfl⟩ | ⟨admits, _, rfl⟩ := attach_ok_cases linked
  · exact sound
  · exact sound.occupy admits

theorem append (sound : forest.Sound) {head node : NodeId} {after : Forest}
    (made : forest.append head node = .ok after) : after.Sound := by
  obtain ⟨last, former, linked⟩ := append_ok made
  exact sound.attach linked

end Sound

end FrontEnd.Forest

namespace FrontEnd.Script.Workbench

open Relation

/-! ### Scripts -/

theorem sound_settle {bench : Workbench} {result : Except LinkError (Option NodeId × Forest)}
    (sound : bench.forest.Sound) (made : ∀ linked, result = .ok linked → linked.2.Sound) :
    (bench.settle result).2.forest.Sound := by
  cases result with
  | error reason => exact sound
  | ok linked => exact made linked rfl

theorem sound_withNode {bench : Workbench} {id : NodeId} {use : Node → ForestAnswer × Workbench}
    (sound : bench.forest.Sound) (used : ∀ node, (use node).2.forest.Sound) :
    (bench.withNode id use).2.forest.Sound := by
  unfold withNode
  split
  · exact sound
  · exact used _

/-- No step of a script harms a sound forest, whether it is accepted or refused. -/
theorem sound_step {bench : Workbench} (sound : bench.forest.Sound) (step : ForestStep) :
    (bench.step step).2.forest.Sound := by
  cases step with
  | moveTo | flag | outline | inspectAll => exact sound
  | make kind payload =>
    cases payload with
    | none => exact sound.add kind _
    | some payload => exact (sound.add kind _).setPayload _ payload
  | setPayload id payload => exact sound_withNode sound fun _ => sound.setPayload id payload
  | setValueType id valueType => exact sound_withNode sound fun _ => sound.setValueType id valueType
  | makeRoot id =>
    refine sound_settle sound fun linked made => ?_
    obtain ⟨after, rooted, rfl⟩ := Forest.exists_of_map_eq_ok made
    exact sound.makeRoot rooted
  | attachChild parent slot child =>
    refine sound_settle sound fun linked made => ?_
    obtain ⟨_, linked⟩ := Forest.attachChild_ok made
    exact sound.attach linked
  | attachNext node next => exact sound_settle sound fun _ linked => sound.attach linked
  | append head node =>
    refine sound_settle sound fun linked made => ?_
    obtain ⟨after, appended, rfl⟩ := Forest.exists_of_map_eq_ok made
    exact sound.append appended
  | outlineFrom | child | inspect => exact sound_withNode sound fun _ => sound
  | chain start =>
    cases start with
    | none => exact sound
    | some id => exact sound_withNode sound fun _ => sound

theorem sound_run {bench : Workbench} (sound : bench.forest.Sound) (steps : List ForestStep) :
    (bench.run steps).2.forest.Sound := by
  induction steps generalizing bench with
  | nil => exact sound
  | cons first rest ih => exact ih (sound_step sound first)

/-- Every forest that a script builds is closed and owns each node once: handles have nodes, owners
and places agree, the start of the chain is free, and owners come to an end without a circle. -/
theorem ownership_of_run (status : Status) (steps : List ForestStep) :
    let forest := ((start status).run steps).2.forest
    ((∀ place target, forest.link? place = some target → forest.has target) ∧
      (∀ target holder, forest.owner? target = some holder → forest.has holder) ∧
      ∀ id, forest.root = some id → forest.has id) ∧
    ((∀ holder target, forest.owner? target = some holder ↔
        ∃ side, forest.link? ⟨holder, side⟩ = some target) ∧
      (∀ first second target, forest.link? first = some target →
        forest.link? second = some target → first = second) ∧
      ∀ target, forest.owner? target = none → ∀ place, forest.link? place ≠ some target) ∧
    (∀ id, forest.root = some id → forest.owner? id = none) ∧
    (∀ id, forest.has id → ∃ top, forest.has top ∧
      ReflTransGen (fun held holder => forest.owner? held = some holder) id top ∧
      forest.owner? top = none) ∧
    ∀ id, ¬ TransGen (fun holder target =>
      ∃ side, forest.link? ⟨holder, side⟩ = some target) id id := by
  intro forest
  have sound : forest.Sound := sound_run .empty steps
  refine ⟨⟨?_, ?_, ?_⟩, ⟨?_, ?_, ?_⟩, ?_, ?_, ?_⟩
  · exact fun _ _ => sound.target_exists
  · exact fun _ _ => sound.owner_exists
  · exact fun _ => sound.root_exists
  · exact fun _ _ => sound.owner_iff
  · exact fun _ _ _ => sound.place_unique
  · exact fun _ => sound.link?_ne_of_free
  · exact fun _ => sound.root_free
  · exact fun _ => sound.exists_top
  · exact sound.not_below_itself

end FrontEnd.Script.Workbench
