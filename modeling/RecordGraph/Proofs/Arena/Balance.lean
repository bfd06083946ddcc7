import RecordGraph.Proofs.Arena.Orderly

/-!
# Owner balance under the operations of an arena

Between operations no node is dying. Each operation on owners and child lists is shown to lead from
a balanced arena to a balanced one, where the owners that the caller has taken and not yet stored,
or has found and not yet given up, are listed as owed.
-/

namespace RecordGraph.Arena

abbrev Steady (arena : Arena) (owed : List NodeId) (holds : NodeId → Nat) : Prop :=
  arena.Tearing [] owed holds

theorem Clearing.tearing {arena : Arena} {work owed : List NodeId} {holds : NodeId → Nat}
    (clearing : arena.Clearing work) (balances : arena.Balances owed holds) :
    arena.Tearing work owed holds :=
  ⟨clearing.wellFormed, balances, clearing.work_nodup, clearing.mem_work⟩

namespace Tearing

variable {arena : Arena} {work owed others : List NodeId} {holds : NodeId → Nat} {id : NodeId}

theorem clearing (tearing : arena.Tearing work owed holds) : arena.Clearing work :=
  ⟨tearing.wellFormed, tearing.work_nodup, tearing.mem_work⟩

theorem congr_owed (tearing : arena.Tearing work owed holds)
    (same : ∀ id, owed.count id = others.count id) : arena.Tearing work others holds :=
  { tearing with balances := fun id => by rw [← same id]; exact tearing.balances id }

theorem hold {more : NodeId → Nat} (tearing : arena.Tearing work owed holds)
    (same : ∀ id, owed.count id + holds id = others.count id + more id) :
    arena.Tearing work others more :=
  { tearing with
    balances := fun id => by
      have balance := tearing.balances id
      have counts := same id
      omega }

theorem not_dying (steady : arena.Steady owed holds) (id : NodeId) : ¬ arena.Dying id :=
  steady.clearing.not_dying id

/-! ## Owners -/

theorem release (steady : arena.Steady (id :: owed) holds) :
    (arena.release id).Steady owed holds ∧ arena.Wanes (arena.release id) := by
  refine ⟨(steady.clearing.release id).tearing ?_, wanes_release arena id⟩
  obtain ⟨node, owners, found⟩ := steady.balances.live_of_owed
  simp only [Arena.release, owners?, found, Option.map_some]
  split
  · rename_i last
    exact (steady.balances.condemn_last found last).teardown _ _
  · exact steady.balances.countOwners_pred found

/-- A release where no owner is counted frees a node that nobody owns, and passes over a stale
id. -/
theorem release_unowned (steady : arena.Steady owed holds) (zero : arena.ownerCount id = 0) :
    (arena.release id).Steady owed holds ∧ arena.Wanes (arena.release id) := by
  refine ⟨(steady.clearing.release id).tearing ?_, wanes_release arena id⟩
  cases found : arena.live? id with
  | none => simpa only [Arena.release, owners?, found, Option.map_none] using steady.balances
  | some pair =>
    obtain ⟨node, owners⟩ := pair
    rw [ownerCount_of_live found] at zero
    subst zero
    simp only [Arena.release, owners?, found, Option.map_some, Nat.zero_le, ↓reduceIte]
    exact (steady.balances.condemn_unowned found).teardown _ _

theorem releaseIfUnowned (steady : arena.Steady owed holds) (id : NodeId) :
    (arena.releaseIfUnowned id).Steady owed holds ∧ arena.Wanes (arena.releaseIfUnowned id) := by
  refine ⟨(steady.clearing.releaseIfUnowned id).tearing ?_, wanes_releaseIfUnowned arena id⟩
  unfold Arena.releaseIfUnowned
  split
  · rename_i unowned
    obtain ⟨node, found⟩ : ∃ node, arena.live? id = some (node, 0) := by
      simpa [isUnowned, owners?] using unowned
    exact (steady.balances.condemn_unowned found).teardown _ _
  · exact steady.balances

theorem retain (steady : arena.Steady owed holds) (live : arena.contains id = true) :
    (arena.retain id).Steady (id :: owed) holds := by
  obtain ⟨node, owners, found⟩ := contains_iff.mp live
  have slot := live?_eq_some_iff.mp found
  apply (steady.clearing.retain id).tearing
  rw [retain_of_live found]
  intro other
  have sums := total_putSlot slot ⟨id.generation, .live node (owners + 1)⟩ (Slot.listed other)
  have before := steady.balances other
  simp only [Slot.listed] at sums
  by_cases same : other = id
  · subst same
    rw [ownerCount_of_live found] at before
    rw [ownerCount_putSlot_live slot, List.count_cons_self]
    omega
  · rw [ownerCount_putSlot_other slot same, List.count_cons_of_ne (Ne.symm same)]
    omega

/-! ## Changing one node -/

/-- A change of a child list settles the owners that enter it and leaves those that it drops. -/
theorem modifyNode {node : Node} {owners : Nat} {change : Node → Node}
    (steady : arena.Steady owed holds) (found : arena.live? id = some (node, owners))
    (exchanged : ∀ other, others.count other + (change node).childArray.count other =
      owed.count other + node.childArray.count other) :
    (arena.modifyNode id change).Steady others holds := by
  have slot := live?_eq_some_iff.mp found
  apply (steady.clearing.modifyNode id change).tearing
  rw [modifyNode_of_live found]
  intro other
  have sums := total_putSlot slot ⟨id.generation, .live (change node) owners⟩ (Slot.listed other)
  have before := steady.balances other
  have counts := exchanged other
  have sameOwners : (arena.putSlot id.index
      ⟨id.generation, .live (change node) owners⟩).ownerCount other = arena.ownerCount other := by
    by_cases same : other = id
    · subst same
      rw [ownerCount_putSlot_live slot, ownerCount_of_live found]
    · exact ownerCount_putSlot_other slot same
  simp only [Slot.listed] at sums
  omega

theorem modifyNode_childless {change : Node → Node} (steady : arena.Steady owed holds)
    (unchanged : ∀ node, (change node).childArray = node.childArray) :
    (arena.modifyNode id change).Steady owed holds := by
  cases found : arena.live? id with
  | none =>
    rw [modifyNode_of_stale found]
    exact steady
  | some pair =>
    obtain ⟨node, owners⟩ := pair
    exact steady.modifyNode found fun other => by rw [unchanged]

end Tearing

/-! ## New nodes -/

theorem Placed.balances {arena later : Arena} {node : Node} {id : NodeId}
    (placed : arena.Placed node id later) {owed : List NodeId} {holds : NodeId → Nat}
    (balances : arena.Balances (node.childArray.toList ++ owed) holds) :
    later.Balances owed holds := by
  intro other
  have sum := placed.sums (Slot.listed other) fun _ => rfl
  have before := balances other
  simp only [Slot.listed] at sum
  rw [List.count_append, Array.count_toList] at before
  by_cases same : other = id
  · subst same
    rw [ownerCount_of_stale placed.live?_before] at before
    rw [ownerCount_of_live placed.live?_same]
    omega
  · have sameOwners : later.ownerCount other = arena.ownerCount other := by
      simp only [ownerCount, owners?, placed.live?_other same]
    omega

namespace Tearing

variable {arena : Arena} {owed : List NodeId} {holds : NodeId → Nat}

theorem retainAll {children : List NodeId} (steady : arena.Steady owed holds)
    (live : ∀ child ∈ children, arena.contains child = true) :
    (children.foldl Arena.retain arena).Steady (children ++ owed) holds := by
  induction children generalizing arena owed with
  | nil => exact steady
  | cons child children induction =>
    have retained := steady.retain (live child (List.mem_cons_self ..))
    have stillLive : ∀ other ∈ children, (arena.retain child).contains other = true := by
      intro other member
      rw [contains_retain]
      exact live other (List.mem_cons_of_mem _ member)
    refine (induction retained stillLive).congr_owed fun other => ?_
    simp only [List.count_append, List.cons_append, List.count_cons]
    omega

theorem adopt (steady : arena.Steady owed holds) (node : Node) :
    (arena.adopt node).2.Steady ((arena.adopt node).1.childArray.toList ++ owed) holds := by
  rw [childArray_adopt, adopt_eq_retainAll]
  apply steady.retainAll
  intro child member
  rw [Array.mem_toList_iff, Array.mem_filter] at member
  exact member.2

theorem alloc (steady : arena.Steady owed holds) (node : Node) :
    (arena.alloc node).2.Steady owed holds :=
  have adopted := steady.adopt node
  (adopted.clearing.place _).tearing ((placed_place adopted.wellFormed _).balances adopted.balances)

theorem ensureChildren (steady : arena.Steady owed holds) (id : NodeId) :
    (arena.ensureChildren id).Steady owed holds :=
  steady.modifyNode_childless Node.childArray_ensureChildren

end Tearing

end RecordGraph.Arena
