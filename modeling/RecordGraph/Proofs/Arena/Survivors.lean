import Mathlib.Data.Set.Card
import RecordGraph.Proofs.Arena.Ways

/-!
# What survives an edit

Where no node is below itself, every live node has a root above it: from owner to owner the way ends
at a hold from outside or at a node that nobody owns. So an edit that gives up owners leaves no node
that no root leads to any more, and it frees none that a root still leads to, for a node that stands
keeps its child list, and what it lists has an owner.
-/

namespace RecordGraph
namespace Arena

variable {arena before after edited : Arena} {owed : List NodeId} {holds : NodeId → Nat}
  {id old parent child : NodeId} {index : Nat}

/-! ## Roots -/

theorem finite_live (arena : Arena) : {id | arena.contains id = true}.Finite := by
  refine Set.Finite.of_finite_image (f := NodeId.index)
    ((Set.finite_lt_nat arena.slots.size).subset ?_) ?_
  · rintro _ ⟨id, live, rfl⟩
    rcases contains_iff.mp live with ⟨node, owners, found⟩
    exact (Array.getElem?_eq_some_iff.mp (live?_eq_some_iff.mp found)).1
  · intro id live other otherLive same
    exact eq_of_index_eq live otherLive same

theorem acyclic_of_not_below (loopless : ∀ id, ¬ arena.Below id id) : arena.Acyclic := by
  have above_finite (id : NodeId) : {other | arena.Below other id}.Finite := by
    refine arena.finite_live.subset fun other below => ?_
    rcases Relation.TransGen.head'_iff.mp (below_iff.mp below) with ⟨next, member, -⟩
    exact contains_of_mem_children member
  refine ⟨fun id => {other | arena.Below other id}.ncard, fun parent child member => ?_⟩
  refine Set.ncard_lt_ncard ⟨fun other below => below.deeper member, fun all => ?_⟩
    (above_finite child)
  exact loopless parent (all (.child member))

theorem Acyclic.not_below (acyclic : arena.Acyclic) (id : NodeId) : ¬ arena.Below id id := by
  rcases acyclic with ⟨rank, rises⟩
  exact fun below => Nat.lt_irrefl _ (rank_lt_of_below rises below)

def namesLater (arena : Arena) : Bool :=
  arena.slots.toList.zipIdx.all fun entry => entry.1.node?.all fun node =>
    node.childArray.toList.all fun child => entry.2 < child.index

theorem acyclic_of_namesLater (later : arena.namesLater = true) : arena.Acyclic := by
  refine ⟨NodeId.index, fun parent child member => ?_⟩
  rcases contains_iff.mp (contains_of_mem_children member) with ⟨node, owners, found⟩
  rw [children_of_live found] at member
  have slot : arena.slots.toList[parent.index]? = some ⟨parent.generation, .live node owners⟩ := by
    rw [Array.getElem?_toList, live?_eq_some_iff.mp found]
  have entry := List.all_eq_true.mp later (_, _) (List.mk_mem_zipIdx_iff_getElem?.mpr slot)
  exact of_decide_eq_true (List.all_eq_true.mp entry child (Array.mem_toList_iff.mpr member))

/-- From owner to owner each live node of an acyclic arena leads up to one that is held or that
nobody owns. -/
theorem Tearing.exists_root (steady : arena.Steady [] holds) (acyclic : arena.Acyclic)
    (live : arena.contains id = true) :
    ∃ root, (0 < holds root ∨ arena.isUnowned root = true) ∧ arena.Reaches root id := by
  rcases acyclic with ⟨rank, rises⟩
  -- on the rank, which is lower at the parent
  induction height : rank id using Nat.strongRecOn generalizing id with
  | ind height induction =>
    subst height
    rcases contains_iff.mp live with ⟨node, owners, found⟩
    have count := steady.ownerCount_eq id
    rw [ownerCount_of_live found, List.count_nil, Nat.add_zero] at count
    by_cases held : 0 < holds id
    · exact ⟨id, .inl held, .refl⟩
    by_cases listed : 0 < arena.occurrences id
    · rcases exists_parent listed with ⟨parent, member⟩
      rcases induction _ (rises parent id member) (contains_of_mem_children member) rfl with
        ⟨root, isRoot, way⟩
      exact ⟨root, isRoot, way.tail member⟩
    · have none : owners = 0 := by omega
      exact ⟨id, .inr (isUnowned_iff.mpr ⟨node, none ▸ found⟩), .refl⟩

theorem Tearing.contains_of_held (steady : arena.Steady [] holds) (held : 0 < holds id) :
    arena.contains id = true := by
  have count := steady.ownerCount_eq id
  exact contains_of_ownerCount_pos (by omega)

/-! ## What stands when owners are given up -/

theorem contains_releaseAll_of_unowned (steady : arena.Steady (owed ++ []) holds)
    (unowned : arena.isUnowned id = true) : (owed.foldl release arena).contains id = true := by
  induction owed generalizing arena with
  | nil =>
    rcases isUnowned_iff.mp unowned with ⟨node, found⟩
    exact contains_iff.mpr ⟨node, 0, found⟩
  | cons node nodes induction =>
    rcases isUnowned_iff.mp unowned with ⟨content, found⟩
    exact induction steady.release.1
      (isUnowned_iff.mpr ⟨content, live?_release_of_unowned steady.balances found⟩)

/-! ## What a release does not touch -/

structure Confined (arena : Arena) (inside : NodeId → Prop) : Prop where
  closed : ∀ {id state node}, arena.slots[id.index]? = some ⟨id.generation, state⟩ →
    (Slot.mk id.generation state).node? = some node → inside id →
      ∀ child ∈ node.childArray, inside child

section Confined

variable {inside : NodeId → Prop}

theorem Confined.putSlot {old new : SlotState} (confined : arena.Confined inside)
    (found : arena.slots[id.index]? = some ⟨id.generation, old⟩)
    (same : (Slot.mk id.generation new).node? = (Slot.mk id.generation old).node?) :
    (arena.putSlot id.index ⟨id.generation, new⟩).Confined inside where
  closed {other state node} foundOther content := by
    by_cases here : id.index = other.index
    · rw [← here, putSlot_slots_same found, Option.some.injEq, Slot.mk.injEq] at foundOther
      rcases foundOther with ⟨generation, rfl⟩
      have stood : arena.slots[other.index]? = some ⟨other.generation, old⟩ := by
        rw [← here, ← generation, found]
      refine confined.closed stood ?_
      rw [← generation, ← same, generation, content]
    · rw [putSlot_slots_other _ here] at foundOther
      exact confined.closed foundOther content

theorem Confined.vacate {node : Node} (confined : arena.Confined inside)
    (found : arena.slots[id.index]? = some ⟨id.generation, .dying node⟩) :
    (arena.vacate id).Confined inside where
  closed {other state node} foundOther content := by
    by_cases here : id.index = other.index
    · rw [← here, vacate_slots_same found, Option.some.injEq, Slot.mk.injEq] at foundOther
      rcases foundOther with ⟨-, rfl⟩
      cases content
    · rw [vacate_slots_other found here] at foundOther
      exact confined.closed foundOther content

theorem Confined.releaseChild (confined : arena.Confined inside) (member : inside child)
    {work : List NodeId} (within : ∀ id ∈ work, inside id) :
    (Arena.releaseChild (arena, work) child).1.Confined inside ∧
      (∀ id ∈ (Arena.releaseChild (arena, work) child).2, inside id) ∧
      ∀ id, ¬ inside id → (Arena.releaseChild (arena, work) child).1.live? id = arena.live? id := by
  have apart {id : NodeId} (outside : ¬ inside id) : id ≠ child := by
    rintro rfl
    exact outside member
  rcases releaseChild_cases arena work child with
    ⟨-, same⟩ | ⟨node, owners, found, ⟨-, same⟩ | ⟨-, same⟩⟩
  · rw [same]
    exact ⟨confined, within, fun _ _ => rfl⟩
  · have slot := live?_eq_some_iff.mp found
    rw [same, condemn_of_live found]
    exact ⟨confined.putSlot slot rfl, List.forall_mem_cons.mpr ⟨member, within⟩,
      fun _ outside => live?_putSlot_other slot (apart outside)⟩
  · have slot := live?_eq_some_iff.mp found
    rw [same, countOwners_of_live found]
    exact ⟨confined.putSlot slot rfl, within,
      fun _ outside => live?_putSlot_other slot (apart outside)⟩

theorem Confined.releaseChildren {children work : List NodeId} (confined : arena.Confined inside)
    (members : ∀ child ∈ children, inside child) (within : ∀ id ∈ work, inside id) :
    (children.foldl Arena.releaseChild (arena, work)).1.Confined inside ∧
      (∀ id ∈ (children.foldl Arena.releaseChild (arena, work)).2, inside id) ∧
      ∀ id, ¬ inside id →
        (children.foldl Arena.releaseChild (arena, work)).1.live? id = arena.live? id := by
  induction children generalizing arena work with
  | nil => exact ⟨confined, within, fun _ _ => rfl⟩
  | cons child children induction =>
    rcases List.forall_mem_cons.mp members with ⟨member, others⟩
    rcases confined.releaseChild member within with ⟨first, firstWithin, same⟩
    rcases induction first others firstWithin with ⟨rest, restWithin, sameRest⟩
    exact ⟨rest, restWithin, fun id outside => (sameRest id outside).trans (same id outside)⟩

theorem Confined.live?_teardown {rounds : Nat} {work : List NodeId}
    (confined : arena.Confined inside) (within : ∀ id ∈ work, inside id) (outside : ¬ inside id) :
    (teardown rounds work arena).live? id = arena.live? id := by
  induction rounds generalizing arena work with
  | zero => rfl
  | succ rounds induction =>
    cases work with
    | nil => rfl
    | cons first work =>
      rcases List.forall_mem_cons.mp within with ⟨member, within⟩
      unfold teardown
      split
      · exact induction confined within
      · rename_i children dying
        rcases exists_of_dyingChildren dying with ⟨node, found, rfl⟩
        have members : ∀ child ∈ node.childArray.toList, inside child := fun child listed =>
          confined.closed found rfl member child (Array.mem_toList_iff.mp listed)
        rcases (confined.vacate found).releaseChildren members within with ⟨rest, restWithin, same⟩
        simp only [← Array.foldl_toList]
        rw [induction rest restWithin, same id outside, live?_vacate found]

end Confined

theorem live?_release_of_not_reaches (orderly : arena.Orderly) (apart : ¬ arena.Reaches old id) :
    (arena.release old).live? id = arena.live? id := by
  have confined : arena.Confined (arena.Reaches old) := by
    refine ⟨fun {parent state node} found content reaches child member => ?_⟩
    cases state with
    | live node owners =>
      cases content
      rw [← children_of_live (live?_eq_some_iff.mpr found)] at member
      exact reaches.tail member
    | dying node => exact absurd ⟨node, found⟩ (orderly.not_dying parent)
    | free => cases content
  have step := confined.releaseChild .refl (List.forall_mem_nil (arena.Reaches old))
  rcases releaseChild_cases arena [] old with
    ⟨stale, -⟩ | ⟨node, owners, found, ⟨last, same⟩ | ⟨several, same⟩⟩
  · simp only [release, owners?, stale, Option.map_none]
  · rw [same] at step
    simp only [release, owners?, found, Option.map_some, last, ↓reduceIte, destroy]
    rw [step.1.live?_teardown step.2.1 apart, step.2.2 id apart]
  · rw [same] at step
    simp only [release, owners?, found, Option.map_some, Nat.not_le.mpr several, ↓reduceIte]
    exact step.2.2 id apart

/-! ## What an edit does before owners are given up -/

structure Relists (before after : Arena) (edited : Option NodeId) : Prop where
  node : ∀ {id node}, after.node? id = some node → ∃ earlier, before.node? id = some earlier ∧
    node = { earlier with children := node.children } ∧ (edited ≠ some id → node = earlier)
  unowned : ∀ {id}, after.isUnowned id = true → before.isUnowned id = true
  names : after.names = before.names

namespace Relists

variable {middle : Arena} {place : Option NodeId}

theorem refl (arena : Arena) (place : Option NodeId) : arena.Relists arena place :=
  ⟨fun found => ⟨_, found, rfl, fun _ => rfl⟩, id, rfl⟩

theorem trans (first : before.Relists middle place) (second : middle.Relists after place) :
    before.Relists after place where
  node found := by
    rcases second.node found with ⟨between, foundBetween, same, kept⟩
    rcases first.node foundBetween with ⟨earlier, foundEarlier, sameBetween, keptBetween⟩
    refine ⟨earlier, foundEarlier, ?_, fun other => (kept other).trans (keptBetween other)⟩
    rw [same, sameBetween]
  unowned := first.unowned ∘ second.unowned
  names := second.names.trans first.names

theorem of_wanes (wanes : before.Wanes after) (place : Option NodeId) :
    before.Relists after place where
  node {id node} found := by
    rcases Option.map_eq_some_iff.mp found with ⟨⟨content, owners⟩, live, rfl⟩
    rcases wanes.live live with ⟨earlier, liveEarlier, -⟩
    exact ⟨content, by rw [node?, liveEarlier, Option.map_some], rfl, fun _ => rfl⟩
  unowned unowned := ((Follows.of_wanes wanes).unowned unowned).resolve_right List.not_mem_nil
  names := wanes.names

theorem retain (arena : Arena) (id : NodeId) (place : Option NodeId) :
    arena.Relists (arena.retain id) place where
  node {other node} found := ⟨node, node?_retain arena id other ▸ found, rfl, fun _ => rfl⟩
  unowned unowned := ((follows_retain arena id).unowned unowned).resolve_right List.not_mem_nil
  names := rfl

theorem modifyNode (arena : Arena) (parent : NodeId) {change : Node → Node}
    (only : ∀ node, change node = { node with children := (change node).children }) :
    arena.Relists (arena.modifyNode parent change) (some parent) where
  node {id node} found := by
    rcases Option.map_eq_some_iff.mp found with ⟨⟨_, owners⟩, live, rfl⟩
    rw [live?_modifyNode] at live
    split at live
    · rename_i here
      subst here
      rcases Option.map_eq_some_iff.mp live with ⟨⟨earlier, count⟩, liveEarlier, same⟩
      cases same
      exact ⟨earlier, by rw [node?, liveEarlier, Option.map_some], only earlier,
        fun other => absurd rfl other⟩
    · exact ⟨_, by rw [node?, live, Option.map_some], rfl, fun _ => rfl⟩
  unowned unowned := isUnowned_modifyNode arena parent _ change ▸ unowned
  names := rfl

theorem exchanged (arena : Arena) (parent child : NodeId) (index : Nat) :
    arena.Relists (arena.exchanged parent index child) (some parent) :=
  (retain arena child _).trans (modifyNode _ parent fun _ => rfl)

theorem pushed (arena : Arena) (parent child : NodeId) :
    arena.Relists ((arena.retain child).modifyNode parent (·.push child)) (some parent) :=
  (retain arena child _).trans (modifyNode _ parent fun node => by
    rcases (Node.GainsChildren.push node child).1 with ⟨children, same⟩
    rw [same])

end Relists

theorem children_pushed (arena : Arena) {parent : NodeId} (live : arena.contains parent = true)
    (child asked : NodeId) :
    ((arena.retain child).modifyNode parent (·.push child)).children asked =
      if asked = parent then (arena.children parent).push child else arena.children asked := by
  split
  · rename_i here
    subst here
    rw [← contains_retain arena child] at live
    rcases contains_iff.mp live with ⟨node, owners, found⟩
    rw [← children_retain arena child, children_of_live found, ← Node.childArray_push]
    exact children_of_live (by rw [live?_modifyNode, if_pos rfl, found, Option.map_some])
  · rename_i other
    rw [children, node?, live?_modifyNode, if_neg other, ← node?, ← children, children_retain]

/-- A way that ends at the only node with another list is one with the lists that there were. -/
theorem reaches_of_edited (kept : ∀ id, id ≠ parent → edited.children id = arena.children id)
    (way : edited.Reaches id parent) : arena.Reaches id parent := by
  induction way using Relation.ReflTransGen.head_induction_on with
  | refl => exact .refl
  | @head id next step _ induction =>
    by_cases here : id = parent
    · exact here ▸ .refl
    · exact .head (kept id here ▸ step) induction

theorem live?_release_exchanged (steady : arena.Steady [] holds)
    (loopless : ∀ id, ¬ arena.Below id id) (stood : arena.child? parent index = some old)
    (linkable : arena.canLink child = true) :
    ((arena.exchanged parent index child).release old).live? parent =
      (arena.exchanged parent index child).live? parent := by
  refine live?_release_of_not_reaches (steady.exchange stood linkable).clearing fun way => ?_
  have back : arena.Reaches old parent :=
    reaches_of_edited (fun id other => by rw [children_exchanged, if_neg other]) way
  exact loopless parent (below_iff.mpr (.head' (Array.mem_of_getElem? stood) back))

end Arena
end RecordGraph
