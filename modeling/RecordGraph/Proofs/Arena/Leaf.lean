import RecordGraph.Proofs.Arena.Claims

/-!
# Freeing a leaf

A node without children takes nothing along when it is freed: every other node is left as it is,
with the owners it has.
-/

namespace RecordGraph.Arena

variable {arena : Arena} {id : NodeId} {node : Node} {owners : Nat}

theorem destroy_leaf (found : arena.live? id = some (node, owners))
    (childless : node.childArray = #[]) : arena.destroy id = (arena.condemn id).vacate id := by
  have slot := live?_eq_some_iff.mp found
  have inside : id.index < arena.slots.size := (Array.getElem?_eq_some_iff.mp slot).1
  have dying : (arena.condemn id).dyingChildren? id = some #[] := by
    rw [condemn_of_live found, dyingChildren?, putSlot_slots_same slot]
    simp [childless]
  unfold destroy
  generalize arena.slots.size = size at inside
  cases size with
  | zero => omega
  | succ rounds =>
    simp only [teardown, dying, Array.foldl_empty]
    cases rounds <;> rfl

theorem live?_destroy_leaf (found : arena.live? id = some (node, owners))
    (childless : node.childArray = #[]) (other : NodeId) :
    (arena.destroy id).live? other = if other = id then none else arena.live? other := by
  have slot := live?_eq_some_iff.mp found
  rw [destroy_leaf found childless, condemn_of_live found, live?_vacate (putSlot_slots_same slot _)]
  split
  · rename_i same
    rw [same, live?_putSlot_same slot]
    rfl
  · rename_i different
    exact live?_putSlot_other slot different

theorem names_destroy_leaf (found : arena.live? id = some (node, owners))
    (childless : node.childArray = #[]) : (arena.destroy id).names = arena.names := by
  rw [destroy_leaf found childless, condemn_of_live found]
  rfl

theorem live?_release_leaf (found : arena.live? id = some (node, owners))
    (childless : node.childArray = #[]) {other : NodeId} (different : other ≠ id) :
    (arena.release id).live? other = arena.live? other := by
  have known : arena.owners? id = some owners := by simp [owners?, found]
  by_cases last : owners ≤ 1
  · simp only [release, known, last, ↓reduceIte]
    rw [live?_destroy_leaf found childless, if_neg different]
  · simp only [release, known, last, ↓reduceIte]
    rw [countOwners_of_live found, live?_putSlot_other (live?_eq_some_iff.mp found) different]

theorem children_release_leaf (found : arena.live? id = some (node, owners))
    (childless : node.childArray = #[]) (other : NodeId) :
    (arena.release id).children other = arena.children other := by
  by_cases same : other = id
  · have known : arena.owners? id = some owners := by simp [owners?, found]
    subst same
    rw [children_of_live found, childless]
    by_cases last : owners ≤ 1
    · simp only [release, known, last, ↓reduceIte]
      exact children_of_stale (by rw [live?_destroy_leaf found childless, if_pos rfl])
    · simp only [release, known, last, ↓reduceIte]
      rw [countOwners_of_live found, children, node?,
        live?_putSlot_same (live?_eq_some_iff.mp found)]
      simp [Slot.live?, childless]
  · simp only [Arena.children, node?, live?_release_leaf found childless same]

theorem names_release_leaf (found : arena.live? id = some (node, owners))
    (childless : node.childArray = #[]) : (arena.release id).names = arena.names := by
  have known : arena.owners? id = some owners := by simp [owners?, found]
  by_cases last : owners ≤ 1
  · simp only [release, known, last, ↓reduceIte]
    exact names_destroy_leaf found childless
  · simp only [release, known, last, ↓reduceIte]
    rfl

theorem live?_releaseIfUnowned_leaf (found : arena.live? id = some (node, owners))
    (childless : node.childArray = #[]) {other : NodeId} (different : other ≠ id) :
    (arena.releaseIfUnowned id).live? other = arena.live? other := by
  unfold releaseIfUnowned
  split
  · rw [live?_destroy_leaf found childless, if_neg different]
  · rfl

theorem names_releaseIfUnowned_leaf (found : arena.live? id = some (node, owners))
    (childless : node.childArray = #[]) : (arena.releaseIfUnowned id).names = arena.names := by
  unfold releaseIfUnowned
  split
  · exact names_destroy_leaf found childless
  · rfl

theorem Placed.child?_eq {later : Arena} (placed : arena.Placed node id later)
    (childless : node.childArray = #[]) (parent : NodeId) (index : Nat) :
    later.child? parent index = arena.child? parent index := by
  by_cases same : parent = id
  · rw [child?, child?, same, children_of_live placed.live?_same, childless,
      children_of_stale placed.live?_before]
  · simp only [child?, Arena.children, node?, placed.live?_other same]

end RecordGraph.Arena
