import FrontEnd.Forest.Link
import Mathlib.Data.List.Nodup
import Mathlib.Data.List.Perm.Subperm
import Mathlib.Logic.Relation
import Mathlib.Order.WellFounded

/-! # Walks along links

`follow` takes a bounded number of steps. When the links it takes never run in a circle and only
lead to nodes of the forest, the number of nodes bounds every walk, so a walk of that many steps
meets all that can be reached. This holds of the owners above a node and of a chain of siblings.
-/

namespace FrontEnd.Forest

open Relation

/-- The links, taken one at a time. -/
def Leads (next : NodeId → Option NodeId) (here there : NodeId) : Prop :=
  next here = some there

/-- Links that never run in a circle and stay among the nodes of a forest. -/
structure Ends (forest : Forest) (next : NodeId → Option NodeId) : Prop where
  grounded : WellFounded fun there here => Leads next here there
  stays : ∀ {here there}, Leads next here there → forest.has there

private theorem index_injective : Function.Injective NodeId.index := by
  rintro ⟨_⟩ ⟨_⟩ same
  exact congrArg NodeId.mk same

variable {forest : Forest} {next : NodeId → Option NodeId}

@[simp] theorem follow_none (steps : Nat) : follow next steps none = [] := by
  cases steps <;> rfl

theorem reaches_of_mem_follow {steps : Nat} {start id : NodeId}
    (member : id ∈ follow next steps (some start)) : ReflTransGen (Leads next) start id := by
  induction steps generalizing start with
  | zero => simp [follow] at member
  | succ steps ih =>
    rw [follow, List.mem_cons] at member
    obtain rfl | member := member
    · exact .refl
    · cases link : next start with
      | none => simp [link] at member
      | some second =>
        rw [link] at member
        exact .head link (ih member)

theorem exists_mem_follow {start id : NodeId} (path : ReflTransGen (Leads next) start id) :
    ∃ steps, id ∈ follow next steps (some start) := by
  induction path using ReflTransGen.head_induction_on with
  | refl => exact ⟨1, by simp [follow]⟩
  | head link _ ih =>
    obtain ⟨steps, member⟩ := ih
    refine ⟨steps + 1, ?_⟩
    rw [follow, show next _ = some _ from link]
    exact List.mem_cons_of_mem _ member

/-- A shorter walk is the beginning of a longer one. -/
theorem follow_eq_take (steps more : Nat) (start : Option NodeId) :
    follow next steps start = (follow next (steps + more) start).take steps := by
  induction steps generalizing start with
  | zero => rfl
  | succ steps ih =>
    cases start with
    | none => simp
    | some id => rw [Nat.succ_add, follow, follow, List.take_succ_cons, ← ih]

/-- Links that never run in a circle lead back to no node. -/
theorem Ends.not_circular (ends : Ends forest next) (id : NodeId) :
    ¬ TransGen (Leads next) id id := by
  intro circle
  exact ends.grounded.transGen.irrefl.irrefl id (transGen_swap.mp circle)

theorem Ends.nodup_follow (ends : Ends forest next) (steps : Nat) (start : Option NodeId) :
    (follow next steps start).Nodup := by
  induction steps generalizing start with
  | zero => exact List.nodup_nil
  | succ steps ih =>
    cases start with
    | none => simp
    | some id =>
      rw [follow, List.nodup_cons]
      refine ⟨fun member => ?_, ih _⟩
      cases link : next id with
      | none => simp [link] at member
      | some second =>
        rw [link] at member
        exact ends.not_circular id (.head' link (reaches_of_mem_follow member))

/-- Different nodes of a forest are no more than it has. -/
theorem length_le_size {ids : List NodeId} (distinct : ids.Nodup)
    (present : ∀ id ∈ ids, forest.has id) : ids.length ≤ forest.size := by
  have distinct : (ids.map NodeId.index).Nodup := distinct.map index_injective
  have within : ids.map NodeId.index ⊆ List.range forest.size := by
    intro index member
    obtain ⟨id, listed, rfl⟩ := List.mem_map.mp member
    exact List.mem_range.mpr (by simpa [has] using present id listed)
  simpa using (List.subperm_of_subset distinct within).length_le

/-- A walk meets a node once at most, so it is no longer than the forest has nodes. -/
theorem Ends.length_follow_le (ends : Ends forest next) {start : NodeId}
    (present : forest.has start) (steps : Nat) :
    (follow next steps (some start)).length ≤ forest.size := by
  refine length_le_size (ends.nodup_follow steps _) fun id member => ?_
  obtain rfl | ⟨_, _, link⟩ := (ReflTransGen.cases_tail_iff _ _ _).mp (reaches_of_mem_follow member)
  · exact present
  · exact ends.stays link

/-- A walk of as many steps as there are nodes meets exactly the nodes that can be reached. -/
theorem Ends.mem_follow_iff (ends : Ends forest next) {start id : NodeId}
    (present : forest.has start) :
    id ∈ follow next forest.size (some start) ↔ ReflTransGen (Leads next) start id := by
  constructor
  · exact reaches_of_mem_follow
  · intro path
    obtain ⟨steps, member⟩ := exists_mem_follow path
    have whole : follow next forest.size (some start) =
        follow next (forest.size + steps) (some start) := by
      rw [follow_eq_take forest.size steps, List.take_of_length_le]
      exact ends.length_follow_le present _
    rw [follow_eq_take steps forest.size, Nat.add_comm] at member
    rw [whole]
    exact List.mem_of_mem_take member

/-- Every walk comes to a node that leads nowhere. -/
theorem Ends.exists_last (ends : Ends forest next) (start : NodeId) :
    ∃ last, ReflTransGen (Leads next) start last ∧ next last = none := by
  induction start using ends.grounded.induction with
  | h start ih =>
    cases link : next start with
    | none => exact ⟨start, .refl, link⟩
    | some second =>
      obtain ⟨last, path, final⟩ := ih second link
      exact ⟨last, .head link path, final⟩

/-! ### Walks to the end -/

/-- The nodes that links lead through from a start until they lead nowhere. -/
inductive Passes (next : NodeId → Option NodeId) : Option NodeId → List NodeId → Prop
  | nil : Passes next none []
  | cons {id : NodeId} {later : List NodeId} (behind : Passes next (next id) later) :
      Passes next (some id) (id :: later)

namespace Passes

variable {start : Option NodeId} {ids others : List NodeId}

/-- A walk of enough steps comes to the end. -/
theorem follow_eq (passes : Passes next start ids) {steps : Nat} (enough : ids.length ≤ steps) :
    follow next steps start = ids := by
  induction passes generalizing steps with
  | nil => exact follow_none steps
  | cons _ ih =>
    obtain ⟨fewer, rfl⟩ := Nat.exists_eq_add_of_lt enough
    rw [follow, ih (by omega)]

theorem unique (passes : Passes next start ids) (further : Passes next start others) :
    ids = others := by
  rw [← passes.follow_eq (Nat.le_max_left ids.length others.length),
    further.follow_eq (Nat.le_max_right ids.length others.length)]

/-- Links that lead the same way from each node of a walk lead through the same walk. -/
theorem congr {other : NodeId → Option NodeId} (passes : Passes next start ids)
    (same : ∀ id ∈ ids, other id = next id) : Passes other start ids := by
  induction passes with
  | nil => exact .nil
  | cons _ ih =>
    obtain ⟨here, later⟩ := List.forall_mem_cons.mp same
    refine .cons ?_
    rw [here]
    exact ih later

/-- The last node of a walk is the one that is reached and leads nowhere. -/
theorem getLast?_eq_some_iff {start last : NodeId} (passes : Passes next (some start) ids) :
    ids.getLast? = some last ↔ ReflTransGen (Leads next) start last ∧ next last = none := by
  induction ids generalizing start with
  | nil => cases passes
  | cons id later ih =>
    obtain _ | behind := passes
    cases link : next id with
    | none =>
      rw [link] at behind
      cases behind
      constructor
      · rintro ⟨⟩
        exact ⟨.refl, link⟩
      · rintro ⟨path, -⟩
        obtain rfl | ⟨second, lead, -⟩ := ReflTransGen.cases_head path
        · rfl
        · rw [Leads, link] at lead
          cases lead
    | some second =>
      rw [link] at behind
      have further := ih behind
      have more : later ≠ [] := by
        rintro rfl
        cases behind
      rw [List.getLast?_cons_of_ne_nil more, further]
      constructor
      · rintro ⟨path, final⟩
        exact ⟨.head link path, final⟩
      · rintro ⟨path, final⟩
        obtain rfl | ⟨third, lead, rest⟩ := ReflTransGen.cases_head path
        · rw [link] at final
          cases final
        · obtain rfl : second = third := Option.some.inj (link.symm.trans lead)
          exact ⟨rest, final⟩

/-- A walk goes on where its last node is made to lead. -/
theorem append {other : NodeId → Option NodeId} {front back : List NodeId} {last target : NodeId}
    (passes : Passes next start front) (final : front.getLast? = some last)
    (leads : ∀ id, other id = if id = last then some target else next id)
    (further : Passes other (some target) back) : Passes other start (front ++ back) := by
  induction passes with
  | nil => cases final
  | @cons id later behind ih =>
    refine .cons ?_
    rw [leads]
    cases link : next id with
    | none =>
      rw [link] at behind
      cases behind
      obtain rfl : id = last := Option.some.inj final
      rw [if_pos rfl]
      exact further
    | some second =>
      have apart : id ≠ last := by
        rintro rfl
        have ends := ((Passes.cons behind).getLast?_eq_some_iff.mp final).2
        rw [link] at ends
        cases ends
      rw [if_neg apart, ← link]
      refine ih ?_
      have more : later ≠ [] := by
        rintro rfl
        rw [link] at behind
        cases behind
      rwa [List.getLast?_cons_of_ne_nil more] at final

end Passes

/-- A walk of as many steps as there are nodes comes to the end. -/
theorem Ends.passes_follow (ends : Ends forest next) {start : NodeId} (present : forest.has start) :
    Passes next (some start) (follow next forest.size (some start)) := by
  have whole : ∃ ids, Passes next (some start) ids := by
    clear present
    induction start using ends.grounded.induction with
    | h start ih =>
      cases link : next start with
      | none =>
        refine ⟨[start], .cons ?_⟩
        rw [link]
        exact .nil
      | some second =>
        obtain ⟨later, behind⟩ := ih second link
        refine ⟨start :: later, .cons ?_⟩
        rwa [link]
  obtain ⟨ids, passes⟩ := whole
  have enough : ids.length ≤ forest.size := by
    rw [← passes.follow_eq (Nat.le_refl _)]
    exact ends.length_follow_le present _
  rwa [passes.follow_eq enough]

end FrontEnd.Forest
