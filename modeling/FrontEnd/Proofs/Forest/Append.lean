import FrontEnd.Proofs.Forest.Preservation

/-! # Appending new nodes

A node that was just made is loose: it holds nothing and nothing holds it. In a sound forest a loose
node can be put behind any other one, so it can be put at the end of every chain that starts elsewhere.
Links leave alone what the nodes stand for.
-/

namespace FrontEnd.Forest

open Relation

variable {forest : Forest}

/-- A node that holds nothing and that nothing holds. -/
structure Loose (forest : Forest) (id : NodeId) : Prop where
  present : forest.has id
  free : forest.owner? id = none
  vacant (side : Side) : forest.link? ⟨id, side⟩ = none
  not_root : forest.root ≠ some id

theorem Sound.loose_add (sound : forest.Sound) (kind : NodeKind) (line : Nat) :
    (forest.add kind line).2.Loose (forest.add kind line).1 := by
  change (forest.add kind line).2.Loose ⟨forest.size⟩
  constructor
  case present => simp
  case free =>
    rw [owner?_add]
    simp [owner?, node?, size]
  case vacant =>
    intro side
    rw [link?_add]
    simp [link?, node?, size]
  case not_root =>
    intro start
    have present := sound.root_exists start
    simp [has] at present

theorem Loose.setPayload {id : NodeId} (loose : forest.Loose id) (payload : Payload) :
    (forest.setPayload id payload).Loose id := by
  unfold Forest.setPayload
  constructor
  case present =>
    rw [has_modify]
    exact loose.present
  case free =>
    rw [owner?_modify]
    · exact loose.free
    · exact fun _ => rfl
  case vacant =>
    intro side
    rw [link?_modify _ _ _ fun _ side => by cases side <;> rfl]
    exact loose.vacant side
  case not_root => exact loose.not_root

namespace Sound

variable (sound : forest.Sound) {id : NodeId} (loose : forest.Loose id)

include sound loose

/-- A loose node can be put into any place of another node. -/
theorem attach_of_loose {place : Place} (holder : forest.has place.holder)
    (apart : place.holder ≠ id) :
    forest.attach place id = .ok (forest.link? place, forest.occupy place id) := by
  have notAbove : id ∉ forest.lineage place.holder := by
    rw [sound.mem_lineage_iff holder]
    intro path
    obtain same | ⟨held, _, owned⟩ := (ReflTransGen.cases_tail_iff _ _ _).mp path
    · exact apart same.symm
    · obtain ⟨side, held⟩ := sound.owner_iff.mp owned
      rw [loose.vacant side] at held
      cases held
  have admits : forest.Admits place id :=
    ⟨holder, loose.present, loose.free, loose.not_root, notAbove⟩
  exact admits.attach_eq (sound.link?_ne_of_free loose.free place)

/-- A loose node is in no chain that starts elsewhere. -/
theorem ne_of_mem_chain {head other : NodeId} (apart : head ≠ id)
    (member : other ∈ forest.chain (some head)) : other ≠ id := by
  rintro rfl
  obtain same | ⟨before, _, link⟩ :=
    (ReflTransGen.cases_tail_iff _ _ _).mp (reaches_of_mem_follow member)
  · exact apart same.symm
  · exact sound.link?_ne_of_free loose.free ⟨before, .next⟩ link

omit loose in
theorem has_of_mem_chain {head other : NodeId} (present : forest.has head)
    (member : other ∈ forest.chain (some head)) : forest.has other := by
  obtain rfl | ⟨before, _, link⟩ :=
    (ReflTransGen.cases_tail_iff _ _ _).mp (reaches_of_mem_follow member)
  · exact present
  · have held : forest.link? ⟨before, .next⟩ = some other := link
    exact sound.target_exists held

/-- A loose node can be put at the end of every chain that starts elsewhere. -/
theorem append_of_loose {head : NodeId} (present : forest.has head) (apart : head ≠ id) :
    ∃ last, forest.append head id = .ok (forest.occupy ⟨last, .next⟩ id) := by
  let last := (forest.chain (some head)).getLastD head
  have listed : last = head ∨ last ∈ forest.chain (some head) := by
    simp only [last, List.getLastD_eq_getLast?]
    cases ends : (forest.chain (some head)).getLast? with
    | none => exact .inl rfl
    | some final => exact .inr (List.mem_of_getLast? ends)
  have holder : forest.has last := by
    obtain same | member := listed
    · rwa [same]
    · exact sound.has_of_mem_chain present member
  have other : last ≠ id := by
    obtain same | member := listed
    · rwa [same]
    · exact sound.ne_of_mem_chain loose apart member
  refine ⟨last, ?_⟩
  rw [Forest.append, attachNext, sound.attach_of_loose loose holder other]
  rfl

end Sound

/-! ### What the nodes stand for -/

/-- What the nodes of a forest stand for, in order of creation, and the lines they were made on. -/
def labels (forest : Forest) : List (Payload × Nat) :=
  forest.nodes.toList.map fun node => (node.payload, node.line)

theorem labels_modify (forest : Forest) (id : NodeId) {change : Node → Node}
    (keeps : ∀ node, (change node).payload = node.payload ∧ (change node).line = node.line) :
    (forest.modify id change).labels = forest.labels := by
  apply List.ext_getElem?
  intro index
  simp only [labels, modify, Array.toList_modify, List.getElem?_map, List.getElem?_modify]
  cases forest.nodes.toList[index]? with
  | none => rfl
  | some node =>
    split <;> simp [keeps]

theorem labels_setOwner (forest : Forest) (id : NodeId) (owner : Option NodeId) :
    (forest.setOwner id owner).labels = forest.labels :=
  forest.labels_modify id fun _ => ⟨rfl, rfl⟩

/-- A link leaves alone what the nodes stand for. -/
theorem labels_occupy (forest : Forest) (place : Place) (target : NodeId) :
    (forest.occupy place target).labels = forest.labels := by
  have held : (forest.modify place.holder fun node => node.hold place.side target).labels =
      forest.labels :=
    forest.labels_modify _ fun node => by cases place.side <;> exact ⟨rfl, rfl⟩
  unfold occupy
  cases forest.link? place <;> simp only [labels_setOwner, held]

/-- A new node with a payload stands behind the others. -/
theorem labels_setPayload_add (forest : Forest) (kind : NodeKind) (line : Nat) (payload : Payload) :
    ((forest.add kind line).2.setPayload (forest.add kind line).1 payload).labels =
      forest.labels ++ [(payload, line)] := by
  have last (node : Node) (change : Node → Node) :
      (forest.nodes.toList ++ [node]).modify forest.nodes.size change =
        forest.nodes.toList ++ [change node] := by
    rw [List.modify_eq_take_drop, ← Array.length_toList, List.take_left, List.drop_left]
    rfl
  simp [labels, Forest.setPayload, modify, add, size, Array.toList_modify, Node.fresh, last]

end FrontEnd.Forest
