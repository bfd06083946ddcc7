import RecordGraph.Proofs.Arena.Teardown

/-!
# Arenas between operations

A teardown that was begun is brought to its end, whatever the counts of owners are: the slot of each
dying node is emptied once, and the node with it. So no node is dying between two operations, and
the free slots are those in the free list.
-/

namespace RecordGraph.Arena

structure Clearing (arena : Arena) (work : List NodeId) : Prop where
  wellFormed : arena.WellFormed
  work_nodup : work.Nodup
  mem_work : ∀ id, id ∈ work ↔ arena.Dying id

abbrev Orderly (arena : Arena) : Prop :=
  arena.Clearing []

theorem orderly_empty : Arena.empty.Orderly where
  wellFormed := ⟨List.nodup_nil, fun index => by simp [empty], rfl⟩
  work_nodup := List.nodup_nil
  mem_work id := by simp [Dying, empty]

/-! ## Nodes that are there -/

theorem eq_of_index_eq {arena : Arena} {id other : NodeId} (live : arena.contains id = true)
    (liveOther : arena.contains other = true) (same : id.index = other.index) : id = other := by
  rcases contains_iff.mp live with ⟨node, owners, found⟩
  rcases contains_iff.mp liveOther with ⟨otherNode, otherOwners, foundOther⟩
  rw [live?_eq_some_iff, same, live?_eq_some_iff.mp foundOther] at found
  rcases id with ⟨index, generation⟩
  rcases other with ⟨otherIndex, otherGeneration⟩
  simp_all

theorem contains_of_node? {arena : Arena} {id : NodeId} {node : Node}
    (found : arena.node? id = some node) : arena.contains id = true := by
  rcases Option.map_eq_some_iff.mp found with ⟨content, live, -⟩
  rw [contains, live, Option.isSome_some]

theorem children_of_node? {arena : Arena} {id : NodeId} {node : Node}
    (found : arena.node? id = some node) : arena.children id = node.childArray := by
  rw [children, found, Option.map_some, Option.getD_some]

theorem contains_of_kind? {arena : Arena} {id : NodeId} {kind : Kind}
    (known : arena.kind? id = some kind) : arena.contains id = true := by
  rcases Option.map_eq_some_iff.mp known with ⟨node, found, -⟩
  exact contains_of_node? found

theorem contains_of_attrById? {arena : Arena} {id : NodeId} {attr : AttrId} {value : Value}
    (known : arena.attrById? id attr = some value) : arena.contains id = true := by
  rcases Option.bind_eq_some_iff.mp known with ⟨node, found, -⟩
  exact contains_of_node? found

/-! ## Reading after a change of one node -/

section Read

variable {arena : Arena} {id : NodeId}

theorem retain_of_live {node : Node} {owners : Nat}
    (found : arena.live? id = some (node, owners)) :
    arena.retain id = arena.putSlot id.index ⟨id.generation, .live node (owners + 1)⟩ :=
  countOwners_of_live found _

theorem retain_of_stale (stale : arena.live? id = none) : arena.retain id = arena :=
  updateLive_of_stale stale _

theorem modifyNode_of_live {node : Node} {owners : Nat}
    (found : arena.live? id = some (node, owners)) (change : Node → Node) :
    arena.modifyNode id change =
      arena.putSlot id.index ⟨id.generation, .live (change node) owners⟩ :=
  updateLive_of_live found _

theorem modifyNode_of_stale (stale : arena.live? id = none) (change : Node → Node) :
    arena.modifyNode id change = arena :=
  updateLive_of_stale stale _

theorem live?_retain (arena : Arena) (id other : NodeId) :
    (arena.retain id).live? other =
      if other = id then (arena.live? id).map fun content => (content.1, content.2 + 1)
      else arena.live? other := by
  cases found : arena.live? id with
  | none =>
    rw [retain_of_stale found]
    split
    · rename_i same
      rw [same, found]
      rfl
    · rfl
  | some content =>
    have slot := live?_eq_some_iff.mp found
    rw [retain_of_live found]
    split
    · rename_i same
      rw [same, live?_putSlot_same slot]
      simp [Slot.live?]
    · rename_i different
      exact live?_putSlot_other slot different

theorem live?_retainAll (nodes : List NodeId) (arena : Arena) (id : NodeId) :
    (nodes.foldl retain arena).live? id =
      (arena.live? id).map fun content => (content.1, content.2 + nodes.count id) := by
  induction nodes generalizing arena with
  | nil => simp
  | cons node nodes induction =>
    rw [List.foldl_cons, induction, live?_retain]
    split
    · rename_i same
      subst same
      rw [Option.map_map, List.count_cons_self]
      apply Option.map_congr
      intro content _
      simp only [Function.comp_apply, Prod.mk.injEq, true_and]
      omega
    · rename_i different
      rw [List.count_cons_of_ne (Ne.symm different)]

theorem childArray_adopt (arena : Arena) (node : Node) :
    (arena.adopt node).1.childArray = node.childArray.filter arena.contains := by
  rcases node with ⟨name, nodeType, attrs, _ | children, status, shareable⟩
  · simp [adopt, Node.childArray]
  · rfl

theorem adopt_eq_retainAll (arena : Arena) (node : Node) :
    (arena.adopt node).2 = (node.childArray.filter arena.contains).toList.foldl retain arena := by
  rcases node with ⟨name, nodeType, attrs, _ | children, status, shareable⟩
  · simp [adopt, Node.childArray]
  · exact (Array.foldl_toList ..).symm

/-- Children that come with a new node are retained one after the other. -/
theorem adopt_induction {motive : Arena → Prop} (node : Node) (start : motive arena)
    (retained : ∀ later child, motive later → motive (later.retain child)) :
    motive (arena.adopt node).2 := by
  rw [adopt_eq_retainAll]
  exact List.foldlRecOn _ _ start fun later holds child _ => retained later child holds

theorem live?_modifyNode (arena : Arena) (id other : NodeId) (change : Node → Node) :
    (arena.modifyNode id change).live? other =
      if other = id then (arena.live? id).map fun content => (change content.1, content.2)
      else arena.live? other := by
  cases found : arena.live? id with
  | none =>
    rw [modifyNode_of_stale found]
    split
    · rename_i same
      rw [same, found]
      rfl
    · rfl
  | some content =>
    have slot := live?_eq_some_iff.mp found
    rw [modifyNode_of_live found]
    split
    · rename_i same
      rw [same, live?_putSlot_same slot]
      simp [Slot.live?]
    · rename_i different
      exact live?_putSlot_other slot different

theorem live?_link (arena : Arena) {parent child : NodeId} (different : parent ≠ child)
    (change : Node → Node) (id : NodeId) :
    ((arena.retain child).modifyNode parent change).live? id =
      if id = parent then (arena.live? parent).map fun content => (change content.1, content.2)
      else if id = child then (arena.live? child).map fun content => (content.1, content.2 + 1)
      else arena.live? id := by
  rw [live?_modifyNode, live?_retain, live?_retain, if_neg different]

@[simp] theorem contains_retain (arena : Arena) (id other : NodeId) :
    (arena.retain id).contains other = arena.contains other := by
  rw [contains, live?_retain]
  split
  · rename_i same
    simp [same, contains]
  · rfl

theorem node?_retain (arena : Arena) (id other : NodeId) :
    (arena.retain id).node? other = arena.node? other := by
  rw [node?, live?_retain]
  split
  · rename_i same
    simp [same, node?, Function.comp_def]
  · rfl

@[simp] theorem children_retain (arena : Arena) (id other : NodeId) :
    (arena.retain id).children other = arena.children other := by
  rw [children, node?_retain, children]

@[simp] theorem contains_modifyNode (arena : Arena) (id other : NodeId) (change : Node → Node) :
    (arena.modifyNode id change).contains other = arena.contains other := by
  rw [contains, live?_modifyNode]
  split
  · rename_i same
    simp [same, contains]
  · rfl

theorem children_modifyNode (arena : Arena) (id other : NodeId) {change : Node → Node}
    (unchanged : ∀ node, (change node).childArray = node.childArray) :
    (arena.modifyNode id change).children other = arena.children other := by
  rw [children, node?, live?_modifyNode, children, node?]
  split
  · rename_i same
    subst same
    cases arena.live? other <;> simp [unchanged]
  · rfl

end Read

/-! ## New nodes -/

structure Placed (arena : Arena) (node : Node) (id : NodeId) (later : Arena) : Prop where
  slot : later.slots[id.index]? = some ⟨id.generation, .live node 0⟩
  vacant : ∀ slot, arena.slots[id.index]? = some slot → slot = ⟨id.generation, .free⟩
  first : arena.slots[id.index]? = none → id.generation = 0
  others : ∀ index, index ≠ id.index → later.slots[index]? = arena.slots[index]?
  sums : ∀ weight : Slot → Nat, (∀ generation, weight ⟨generation, .free⟩ = 0) →
    later.total weight = arena.total weight + weight ⟨id.generation, .live node 0⟩
  wellFormed : later.WellFormed
  names : later.names = arena.names

theorem placed_place {arena : Arena} (wellFormed : arena.WellFormed) (node : Node) :
    arena.Placed node (arena.place node).1 (arena.place node).2 := by
  obtain ⟨slots, free, live, names⟩ := arena
  cases free with
  | nil =>
    have sums (weight : Slot → Nat) :
        (Arena.mk (slots.push ⟨0, .live node 0⟩) [] (live + 1) names).total weight =
          (Arena.mk slots [] live names).total weight + weight ⟨0, .live node 0⟩ := by
      simp [total]
    refine ⟨by simp [place], fun slot found => ?_, fun _ => rfl, fun index different => ?_,
      fun weight _ => sums weight, ⟨List.nodup_nil, fun index => ?_, ?_⟩, rfl⟩
    · simp [place] at found
    · have different : index ≠ slots.size := different
      simp [place, Array.getElem?_push, different]
    · have none := wellFormed.mem_free index
      simp only [place, Array.getElem?_push]
      by_cases same : index = slots.size
      · simp [same]
      · simpa [same] using none
    · have counted := wellFormed.live_eq
      simp only [place, sums]
      rw [← counted]
      rfl
  | cons index free =>
    obtain ⟨generation, found⟩ := (wellFormed.mem_free index).mp (List.mem_cons_self ..)
    have known : slots[index]? = some ⟨generation, .free⟩ := found
    have placed : (Arena.mk slots (index :: free) live names).place node =
        (⟨index, generation⟩,
          { (Arena.mk slots (index :: free) live names).putSlot index
              ⟨generation, .live node 0⟩ with free, live := live + 1 }) := by
      simp only [place, known, Option.map_some, Option.getD_some, putSlot,
        modify_eq_setIfInBounds known]
    have sums (weight : Slot → Nat) := total_putSlot found ⟨generation, .live node 0⟩ weight
    have parts := List.nodup_cons.mp wellFormed.free_nodup
    rw [placed]
    refine ⟨putSlot_slots_same found _, fun slot foundAgain => ?_, fun missing => ?_,
      fun other different => putSlot_slots_other _ (Ne.symm different) _,
      fun weight zero => ?_, ⟨parts.2, fun other => ?_, ?_⟩, rfl⟩
    · rw [found] at foundAgain
      exact (Option.some.inj foundAgain).symm
    · rw [found] at missing
      cases missing
    · have sum := sums weight
      rw [zero] at sum
      exact sum
    · have before := wellFormed.mem_free other
      by_cases same : index = other
      · subst same
        simp [parts.1, putSlot_slots_same found]
      · simp only [putSlot_slots_other _ same]
        rw [← before, List.mem_cons]
        simp [Ne.symm same]
    · have sum := sums Slot.occupied
      have counted := wellFormed.live_eq
      simp only [Slot.occupied] at sum
      change live + 1 = ((Arena.mk slots (index :: free) live names).putSlot index
        ⟨generation, .live node 0⟩).total Slot.occupied
      change live = _ at counted
      omega

theorem adopt_childless {arena : Arena} {node : Node} (childless : node.childArray = #[]) :
    arena.adopt node = (node, arena) := by
  rcases node with ⟨name, nodeType, attrs, children, status, shareable⟩
  cases children with
  | none => rfl
  | some children =>
    have none : children = #[] := childless
    subst none
    rfl

theorem placed_alloc {arena : Arena} (wellFormed : arena.WellFormed) {node : Node}
    (childless : node.childArray = #[]) :
    arena.Placed node (arena.alloc node).1 (arena.alloc node).2 := by
  simp only [alloc, adopt_childless childless]
  exact placed_place wellFormed node

namespace Placed

variable {arena later : Arena} {node : Node} {id : NodeId} (placed : arena.Placed node id later)
include placed

theorem not_issued : ¬ arena.Issued id := by
  rintro ⟨slot, found, order⟩
  rw [placed.vacant slot found] at order
  simp at order

theorem live?_same : later.live? id = some (node, 0) :=
  live?_eq_some_iff.mpr placed.slot

theorem live?_other {other : NodeId} (different : other ≠ id) :
    later.live? other = arena.live? other := by
  by_cases same : other.index = id.index
  · have generations : id.generation ≠ other.generation := fun equal =>
      different (by cases id; cases other; simp_all)
    rw [live?, live?, same, placed.slot]
    cases found : arena.slots[id.index]? with
    | none => simp [Slot.live?, generations]
    | some slot => simp [placed.vacant slot found, Slot.live?, generations]
  · rw [live?, live?, placed.others _ same]

theorem live?_before : arena.live? id = none := by
  cases found : arena.live? id with
  | none => rfl
  | some pair => exact absurd (issued_of_live found) placed.not_issued

theorem contains {other : NodeId} (live : arena.contains other = true) :
    later.contains other = true := by
  have old : other ≠ id := by
    rintro rfl
    rw [Arena.contains, placed.live?_before] at live
    cases live
  rwa [Arena.contains, placed.live?_other old]

theorem issued {other : NodeId} (earlier : arena.Issued other) : later.Issued other := by
  obtain ⟨slot, found, order⟩ := earlier
  by_cases same : other.index = id.index
  · rw [same] at found
    rw [placed.vacant slot found] at order
    simp only [ne_eq, not_true_eq_false, and_false, or_false] at order
    exact ⟨_, by rw [same]; exact placed.slot, .inl order⟩
  · exact ⟨slot, by rwa [placed.others _ same], order⟩

theorem eq_of_issued {other : NodeId} (issued : later.Issued other) (new : ¬ arena.Issued other) :
    other = id := by
  rcases issued with ⟨slot, found, order⟩
  by_cases same : other.index = id.index
  · rw [same, placed.slot] at found
    cases found
    rcases order with earlier | ⟨equal, -⟩
    · cases known : arena.slots[id.index]? with
      | none =>
        rw [placed.first known] at earlier
        exact absurd earlier (Nat.not_lt_zero _)
      | some slot =>
        rw [placed.vacant slot known, ← same] at known
        exact absurd ⟨_, known, .inl earlier⟩ new
    · cases other
      cases id
      simp_all
  · rw [placed.others _ same] at found
    exact absurd ⟨slot, found, order⟩ new

theorem dying {other : NodeId} (dying : later.Dying other) : arena.Dying other := by
  obtain ⟨content, found⟩ := dying
  by_cases same : other.index = id.index
  · rw [same, placed.slot] at found
    simp at found
  · exact ⟨content, by rwa [← placed.others _ same]⟩

end Placed

/-! ## Teardowns -/

theorem WellFormed.live_le_size {arena : Arena} (wellFormed : arena.WellFormed) :
    arena.live ≤ arena.slots.size := by
  rw [wellFormed.live_eq, total, ← Array.length_toList]
  have bounded : ∀ slots : List Slot, (slots.map Slot.occupied).sum ≤ slots.length := by
    intro slots
    induction slots with
    | nil => simp
    | cons slot slots induction =>
      have one : slot.occupied ≤ 1 := by
        unfold Slot.occupied
        split <;> omega
      simp only [List.map_cons, List.sum_cons, List.length_cons]
      omega
  exact bounded _

namespace Clearing

variable {arena : Arena} {work : List NodeId} {id : NodeId}

theorem not_dying (orderly : arena.Orderly) (id : NodeId) : ¬ arena.Dying id := by
  rw [← orderly.mem_work]
  exact List.not_mem_nil

theorem putLive {node new : Node} {owners count : Nat} (clearing : arena.Clearing work)
    (found : arena.live? id = some (node, owners)) :
    (arena.putSlot id.index ⟨id.generation, .live new count⟩).Clearing work := by
  have slot := live?_eq_some_iff.mp found
  refine ⟨clearing.wellFormed.putSlot slot (by simp) (by simp), clearing.work_nodup,
    fun other => ?_⟩
  rw [clearing.mem_work]
  by_cases same : other = id
  · subst same
    constructor
    · rintro ⟨_, dying⟩
      rw [slot] at dying
      cases dying
    · rintro ⟨_, dying⟩
      rw [putSlot_slots_same slot] at dying
      cases dying
  · exact (dying_putSlot_other slot same).symm

theorem condemn {node : Node} {owners : Nat} (clearing : arena.Clearing work)
    (found : arena.live? id = some (node, owners)) :
    (arena.condemn id).Clearing (id :: work) := by
  have slot := live?_eq_some_iff.mp found
  rw [condemn_of_live found]
  refine ⟨clearing.wellFormed.putSlot slot (by simp) (by simp), ?_, fun other => ?_⟩
  · refine List.nodup_cons.mpr ⟨fun member => ?_, clearing.work_nodup⟩
    rcases (clearing.mem_work id).mp member with ⟨_, dying⟩
    rw [slot] at dying
    cases dying
  · rw [List.mem_cons, clearing.mem_work]
    by_cases same : other = id
    · subst same
      simp only [true_or, true_iff]
      exact ⟨node, putSlot_slots_same slot _⟩
    · rw [dying_putSlot_other slot same]
      simp [same]

theorem releaseChild (clearing : arena.Clearing work) (child : NodeId) :
    (Arena.releaseChild (arena, work) child).1.Clearing
        (Arena.releaseChild (arena, work) child).2 ∧
      (Arena.releaseChild (arena, work) child).1.live = arena.live := by
  rcases releaseChild_cases arena work child with
    ⟨-, same⟩ | ⟨node, owners, found, ⟨-, same⟩ | ⟨-, same⟩⟩
  · rw [same]
    exact ⟨clearing, rfl⟩
  · rw [same]
    exact ⟨clearing.condemn found, by rw [condemn_of_live found]; rfl⟩
  · rw [same, countOwners_of_live found]
    exact ⟨clearing.putLive found, rfl⟩

theorem releaseChildren (clearing : arena.Clearing work) (children : List NodeId) :
    (children.foldl Arena.releaseChild (arena, work)).1.Clearing
        (children.foldl Arena.releaseChild (arena, work)).2 ∧
      (children.foldl Arena.releaseChild (arena, work)).1.live = arena.live := by
  induction children generalizing arena work with
  | nil => exact ⟨clearing, rfl⟩
  | cons child children induction =>
    rcases clearing.releaseChild child with ⟨released, sameLive⟩
    rcases induction released with ⟨rest, restLive⟩
    exact ⟨rest, restLive.trans sameLive⟩

theorem vacate {node : Node} (clearing : arena.Clearing (id :: work))
    (found : arena.slots[id.index]? = some ⟨id.generation, .dying node⟩) :
    (arena.vacate id).Clearing work := by
  rcases List.nodup_cons.mp clearing.work_nodup with ⟨notMember, nodup⟩
  refine ⟨clearing.wellFormed.vacate found, nodup, fun other => ?_⟩
  rw [dying_vacate found, ← clearing.mem_work, List.mem_cons]
  constructor
  · intro member
    refine ⟨.inr member, fun same => ?_⟩
    subst same
    exact notMember member
  · rintro ⟨same | member, different⟩
    · exact absurd same different
    · exact member

/-- A teardown that has a round for each node left in the arena frees all dying nodes. -/
theorem teardown {rounds : Nat} (clearing : arena.Clearing work) (enough : arena.live ≤ rounds) :
    (Arena.teardown rounds work arena).Orderly := by
  induction rounds generalizing arena work with
  | zero =>
    -- no slot is occupied, so nothing can wait in the work list
    have empty : work = [] := by
      apply List.eq_nil_iff_forall_not_mem.mpr
      intro id member
      rcases (clearing.mem_work id).mp member with ⟨node, found⟩
      have weight := weight_le_total found Slot.occupied
      have counted := clearing.wellFormed.live_eq
      simp only [Slot.occupied] at weight
      omega
    subst empty
    exact clearing
  | succ rounds induction =>
    cases work with
    | nil => exact clearing
    | cons id work =>
      rcases (clearing.mem_work id).mp (List.mem_cons_self ..) with ⟨node, found⟩
      have children : arena.dyingChildren? id = some node.childArray := by
        simp [dyingChildren?, found]
      have fewer := live_vacate clearing.wellFormed found
      rcases (clearing.vacate found).releaseChildren node.childArray.toList with
        ⟨released, sameLive⟩
      simp only [Arena.teardown, children, ← Array.foldl_toList]
      exact induction released (by omega)

/-! ## Operations -/

theorem destroy {node : Node} {owners : Nat} (orderly : arena.Orderly)
    (found : arena.live? id = some (node, owners)) : (arena.destroy id).Orderly := by
  apply (orderly.condemn found).teardown
  rw [condemn_of_live found]
  exact orderly.wellFormed.live_le_size

theorem updateLive (clearing : arena.Clearing work) (id : NodeId)
    {change : Node → Nat → SlotState}
    (stays : ∀ node owners, ∃ new count, change node owners = .live new count) :
    (arena.updateLive id change).Clearing work := by
  cases found : arena.live? id with
  | none => rwa [updateLive_of_stale found]
  | some content =>
    rcases stays content.1 content.2 with ⟨new, count, same⟩
    rw [updateLive_of_live found, same]
    exact clearing.putLive found

theorem modifyNode (clearing : arena.Clearing work) (id : NodeId) (change : Node → Node) :
    (arena.modifyNode id change).Clearing work :=
  clearing.updateLive id fun _ _ => ⟨_, _, rfl⟩

theorem retain (clearing : arena.Clearing work) (id : NodeId) : (arena.retain id).Clearing work :=
  clearing.updateLive id fun _ _ => ⟨_, _, rfl⟩

theorem names (orderly : arena.Orderly) (names : NameTable) : { arena with names }.Orderly :=
  ⟨⟨orderly.wellFormed.free_nodup, orderly.wellFormed.mem_free, orderly.wellFormed.live_eq⟩,
    orderly.work_nodup, orderly.mem_work⟩

theorem release (orderly : arena.Orderly) (id : NodeId) : (arena.release id).Orderly := by
  cases found : arena.live? id with
  | none => simpa only [Arena.release, owners?, found, Option.map_none] using orderly
  | some content =>
    simp only [Arena.release, owners?, found, Option.map_some]
    split
    · exact orderly.destroy found
    · exact orderly.updateLive id fun _ _ => ⟨_, _, rfl⟩

theorem releaseIfUnowned (orderly : arena.Orderly) (id : NodeId) :
    (arena.releaseIfUnowned id).Orderly := by
  unfold Arena.releaseIfUnowned
  split
  · cases found : arena.live? id with
    | none =>
      rename_i unowned
      simp [isUnowned, owners?, found] at unowned
    | some content => exact orderly.destroy found
  · exact orderly

theorem adopt (orderly : arena.Orderly) (node : Node) : (arena.adopt node).2.Orderly :=
  adopt_induction node orderly fun _ child kept => kept.retain child

theorem place (orderly : arena.Orderly) (node : Node) : (arena.place node).2.Orderly := by
  have placed := placed_place orderly.wellFormed node
  refine ⟨placed.wellFormed, List.nodup_nil, fun other => ?_⟩
  simp only [List.not_mem_nil, false_iff]
  exact fun dying => orderly.not_dying other (placed.dying dying)

theorem alloc (orderly : arena.Orderly) (node : Node) : (arena.alloc node).2.Orderly :=
  (orderly.adopt node).place _

end Clearing
end RecordGraph.Arena
