import RecordGraph.Proofs.Arena.Edits

/-!
# The lengths of child lists

The child lists of an arena have a greatest length, whether or not the arena is in order. Only where
a child is appended can a list outgrow it.
-/

namespace RecordGraph.Arena

def Within (bound : Nat) (arena : Arena) : Prop :=
  ∀ id, arena.childCount id ≤ bound

private def lengthIn (slot : Slot) : Nat :=
  match slot.state with
  | .live node _ => node.childArray.size
  | _ => 0

variable {bound : Nat} {arena : Arena}

theorem within_of_live (short : ∀ {id node owners}, arena.live? id = some (node, owners) →
    node.childArray.size ≤ bound) : arena.Within bound := by
  intro id
  rw [childCount]
  cases found : arena.live? id with
  | none => simp [children_of_stale found]
  | some content =>
    rw [children_of_live found]
    exact short found

theorem exists_within (arena : Arena) : ∃ bound, arena.Within bound := by
  refine ⟨arena.total lengthIn, within_of_live fun found => ?_⟩
  exact weight_le_total (live?_eq_some_iff.mp found) lengthIn

/-! ## New leaves -/

theorem eq_or_live_of_place {node content : Node} {id : NodeId} {owners : Nat}
    (found : (arena.place node).2.live? id = some (content, owners)) :
    content = node ∨ arena.live? id = some (content, owners) := by
  have slot := live?_eq_some_iff.mp found
  rcases arena with ⟨slots, free, live, names⟩
  cases free with
  | nil =>
    simp only [place, Array.getElem?_push] at slot
    split at slot
    · have same : node = content := by injections
      exact .inl same.symm
    · exact .inr (live?_eq_some_iff.mpr slot)
  | cons index free =>
    simp only [place, Array.getElem?_modify] at slot
    split at slot
    · rcases Option.map_eq_some_iff.mp slot with ⟨earlier, -, taken⟩
      have same : node = content := by injections
      exact .inl same.symm
    · exact .inr (live?_eq_some_iff.mpr slot)

theorem childCount_alloc_le (arena : Arena) {node : Node} (childless : node.childArray = #[])
    (id : NodeId) : (arena.alloc node).2.childCount id ≤ arena.childCount id := by
  rw [alloc, adopt_childless childless]
  simp only [childCount]
  cases found : (arena.place node).2.live? id with
  | none => simp [children_of_stale found]
  | some content =>
    rcases eq_or_live_of_place found with same | known
    · rw [children_of_live found, same, childless]
      exact Nat.zero_le _
    · rw [children_of_live found, children_of_live known]

namespace Within

theorem mono {greater : Nat} (within : arena.Within bound) (le : bound ≤ greater) :
    arena.Within greater :=
  fun id => Nat.le_trans (within id) le

variable (within : arena.Within bound)
include within

theorem size_le {id : NodeId} {node : Node} {owners : Nat}
    (found : arena.live? id = some (node, owners)) : node.childArray.size ≤ bound := by
  rw [← children_of_live found]
  exact within id

theorem lt_of_child? {id child : NodeId} {index : Nat}
    (stands : arena.child? id index = some child) : index < bound :=
  Nat.lt_of_lt_of_le (Array.getElem?_eq_some_iff.mp stands).1 (within id)

theorem wanes {after : Arena} (wanes : arena.Wanes after) : after.Within bound := by
  apply within_of_live
  intro id node owners found
  rcases wanes.live found with ⟨earlier, known, -⟩
  exact within.size_le known

theorem retain (id : NodeId) : (arena.retain id).Within bound := by
  intro other
  rw [childCount, children_retain]
  exact within other

theorem modifyNode {id : NodeId} {change : Node → Node}
    (short : ∀ {node owners}, arena.live? id = some (node, owners) →
      (change node).childArray.size ≤ bound) : (arena.modifyNode id change).Within bound := by
  apply within_of_live
  intro other node owners found
  rw [live?_modifyNode] at found
  split at found
  · rcases Option.map_eq_some_iff.mp found with ⟨content, known, same⟩
    cases same
    exact short known
  · exact within.size_le found

theorem childless (id : NodeId) {change : Node → Node}
    (unchanged : ∀ node, (change node).childArray = node.childArray) :
    (arena.modifyNode id change).Within bound := by
  intro other
  rw [childCount, children_modifyNode arena id other unchanged]
  exact within other

theorem names (names : NameTable) : { arena with names }.Within bound :=
  within

theorem alloc {node : Node} (childless : node.childArray = #[]) :
    (arena.alloc node).2.Within bound :=
  fun id => Nat.le_trans (childCount_alloc_le arena childless id) (within id)

theorem pushChild {parent : NodeId} (room : arena.childCount parent < bound) (child : NodeId) :
    (arena.pushChild parent child).2.Within bound := by
  unfold Arena.pushChild
  split
  · apply (within.retain child).modifyNode
    intro node owners found
    rw [Node.childArray_push, Array.size_push, ← children_of_live found, children_retain]
    exact room
  · exact within

theorem exchanged (parent : NodeId) (index : Nat) (child : NodeId) :
    (arena.exchanged parent index child).Within bound := by
  apply (within.retain child).modifyNode
  intro node owners found
  have length := (within.retain child).size_le found
  rcases node with ⟨name, nodeType, attrs, children, status, shareable⟩
  cases children with
  | none => exact length
  | some children =>
    change (children.setIfInBounds index child).size ≤ bound
    rwa [Array.size_setIfInBounds]

theorem setChild {index : Nat} (room : index < bound) (parent child : NodeId) :
    (arena.setChild parent index child).2.Within bound := by
  rcases setChild_cases arena parent index child with same | ⟨behind, same⟩ | ⟨old, -, -, same⟩
  · rwa [same]
  · rw [same]
    exact within.pushChild (behind ▸ room) child
  · rw [same]
    exact (within.exchanged parent index child).wanes (wanes_release _ old)

end Within
end RecordGraph.Arena
