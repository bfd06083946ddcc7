import Mathlib.Data.List.Perm.Basic
import RecordGraph.Proofs.Arena.Balance

/-!
# Owner balance under edits of child lists

An edit takes the child that enters a list before it gives up the one that leaves. Giving up may
tear down any node that loses its last owner, the edited parent among them.
-/

namespace RecordGraph.Arena

/-! ## Occurrences in an edited list -/

theorem count_insertIdx (children : Array NodeId) {index : Nat}
    (inside : index ≤ children.size) (child other : NodeId) :
    (children.insertIdxIfInBounds index child).count other =
      [child].count other + children.count other := by
  have bound : index ≤ children.toList.length := by simpa using inside
  rw [Array.insertIdxIfInBounds, dif_pos inside, ← Array.count_toList, Array.toList_insertIdx,
    (List.perm_insertIdx child children.toList bound).count_eq, ← Array.count_toList,
    ← List.count_append, List.singleton_append]

theorem count_set {children : Array NodeId} {index : Nat} {old : NodeId}
    (found : children[index]? = some old) (child other : NodeId) :
    [old].count other + (children.setIfInBounds index child).count other =
      [child].count other + children.count other := by
  obtain ⟨inside, rfl⟩ := Array.getElem?_eq_some_iff.mp found
  have bound : index < children.toList.length := by simpa using inside
  have after := (List.set_perm_cons_eraseIdx bound child).count_eq other
  have before := (List.getElem_cons_eraseIdx_perm bound).count_eq other
  rw [← Array.count_toList, ← Array.count_toList, Array.toList_setIfInBounds]
  simp only [List.count_cons, List.count_nil, Array.getElem_toList] at after before ⊢
  omega

theorem count_eraseIdx {children : Array NodeId} {index : Nat} {old : NodeId}
    (found : children[index]? = some old) (other : NodeId) :
    [old].count other + (children.eraseIdxIfInBounds index).count other = children.count other := by
  obtain ⟨inside, rfl⟩ := Array.getElem?_eq_some_iff.mp found
  have bound : index < children.toList.length := by simpa using inside
  have before := (List.getElem_cons_eraseIdx_perm bound).count_eq other
  rw [Array.eraseIdxIfInBounds, dif_pos inside, ← Array.count_toList, Array.toList_eraseIdx,
    ← Array.count_toList]
  simp only [List.count_cons, List.count_nil, Array.getElem_toList] at before ⊢
  omega

/-! ## Edits -/

theorem contains_of_canLink {arena : Arena} {child : NodeId}
    (linkable : arena.canLink child = true) : arena.contains child = true := by
  cases found : arena.live? child with
  | none => simp [canLink, found] at linkable
  | some content => exact contains_iff.mpr ⟨content.1, content.2, found⟩

theorem contains_of_mem_children {arena : Arena} {parent child : NodeId}
    (member : child ∈ arena.children parent) : arena.contains parent = true := by
  cases found : arena.live? parent with
  | none => simp [children_of_stale found] at member
  | some content => exact contains_iff.mpr ⟨content.1, content.2, found⟩

theorem contains_of_child {arena : Arena} {parent child : NodeId} {index : Nat}
    (found : arena.child? parent index = some child) : arena.contains parent = true :=
  contains_of_mem_children (Array.mem_of_getElem? found)

def exchanged (arena : Arena) (parent : NodeId) (index : Nat) (child : NodeId) : Arena :=
  (arena.retain child).modifyNode parent fun node =>
    { node with children := node.children.map fun children => children.setIfInBounds index child }

section

variable {arena : Arena} {parent old : NodeId} {index : Nat}

theorem setChild_eq_of_child (child : NodeId) (stood : arena.child? parent index = some old) :
    arena.setChild parent index child =
      if old = child then (true, arena)
      else if arena.canLink child = true then
        (true, (arena.exchanged parent index child).release old)
      else (false, arena) := by
  unfold setChild
  simp only [contains_of_child stood, Bool.not_true, Bool.false_eq_true, ↓reduceIte, stood]
  rfl

theorem setChild_eq_of_none (child : NodeId) (vacant : arena.child? parent index = none) :
    arena.setChild parent index child =
      if arena.contains parent = true ∧ index = arena.childCount parent then
        arena.pushChild parent child
      else (false, arena) := by
  unfold setChild
  cases live : arena.contains parent <;> simp [vacant]

theorem setChild_of_child {child : NodeId} (stood : arena.child? parent index = some old) :
    (arena.setChild parent index child).2 =
      if old ≠ child ∧ arena.canLink child = true then
        (arena.exchanged parent index child).release old
      else arena := by
  rw [setChild_eq_of_child child stood]
  by_cases same : old = child
  · simp [same]
  · by_cases linkable : arena.canLink child = true <;> simp [same, linkable]

end

/-- A child that is put in a list leaves the arena as it was, or is pushed behind the others, or
takes the place of one that is given up. -/
theorem setChild_cases (arena : Arena) (parent : NodeId) (index : Nat) (child : NodeId) :
    (arena.setChild parent index child).2 = arena ∨
      index = arena.childCount parent ∧
          (arena.setChild parent index child).2 = (arena.pushChild parent child).2 ∨
        ∃ old, arena.child? parent index = some old ∧ arena.canLink child = true ∧
          (arena.setChild parent index child).2 =
            (arena.exchanged parent index child).release old := by
  cases stood : arena.child? parent index with
  | none =>
    rw [setChild_eq_of_none child stood]
    split
    · rename_i behind
      exact .inr (.inl ⟨behind.2, rfl⟩)
    · exact .inl rfl
  | some old =>
    rw [setChild_of_child stood]
    split
    · rename_i allowed
      exact .inr (.inr ⟨old, rfl, allowed.2, rfl⟩)
    · exact .inl rfl

def dropped (arena : Arena) (parent : NodeId) (index : Nat) : Arena :=
  arena.modifyNode parent fun node =>
    { node with children := node.children.map fun children => children.eraseIdxIfInBounds index }

def emptied (arena : Arena) (parent : NodeId) : Arena :=
  arena.modifyNode parent fun node => { node with children := node.children.map fun _ => #[] }

theorem removeChild_of_child {arena : Arena} {parent old : NodeId} {index : Nat}
    (stood : arena.child? parent index = some old) :
    (arena.removeChild parent index).2 = (arena.dropped parent index).release old := by
  simp only [removeChild, stood, dropped]

theorem clearChildren_eq (arena : Arena) (parent : NodeId) :
    arena.clearChildren parent =
      (arena.children parent).toList.foldl release (arena.emptied parent) := by
  rw [clearChildren, ← Array.foldl_toList, emptied]

theorem wanes_releaseAll (arena : Arena) (nodes : List NodeId) :
    arena.Wanes (nodes.foldl release arena) := by
  induction nodes generalizing arena with
  | nil => exact .refl arena
  | cons node nodes induction => exact (wanes_release arena node).trans (induction _)

theorem children_modifyList (arena : Arena) (parent asked : NodeId)
    {change : Array NodeId → Array NodeId} (empty : change #[] = #[]) :
    (arena.modifyNode parent fun node =>
      { node with children := node.children.map change }).children asked =
        if asked = parent then change (arena.children parent) else arena.children asked := by
  simp only [children, node?, live?_modifyNode]
  split
  · rename_i same
    subst same
    cases arena.live? asked with
    | none => simp [empty]
    | some content =>
      rcases content with ⟨⟨name, nodeType, attrs, _ | children, status, shareable⟩, owners⟩ <;>
        simp [Node.childArray, empty]
  · rfl

theorem children_exchanged (arena : Arena) (parent child asked : NodeId) (index : Nat) :
    (arena.exchanged parent index child).children asked =
      if asked = parent then (arena.children parent).setIfInBounds index child
      else arena.children asked := by
  rw [exchanged, children_modifyList _ _ _ (by simp), children_retain, children_retain]

theorem children_dropped (arena : Arena) (parent asked : NodeId) (index : Nat) :
    (arena.dropped parent index).children asked =
      if asked = parent then (arena.children parent).eraseIdxIfInBounds index
      else arena.children asked :=
  children_modifyList arena parent asked (by simp [Array.eraseIdxIfInBounds])

theorem children_emptied (arena : Arena) (parent asked : NodeId) :
    (arena.emptied parent).children asked = if asked = parent then #[] else arena.children asked :=
  children_modifyList arena parent asked rfl

theorem live?_exchanged {arena : Arena} {parent child asked : NodeId} {index : Nat}
    (different : asked ≠ parent) :
    (arena.exchanged parent index child).live? asked =
      if asked = child then (arena.live? child).map fun content => (content.1, content.2 + 1)
      else arena.live? asked := by
  rw [exchanged, live?_modifyNode, if_neg different, live?_retain]

namespace Tearing

variable {arena : Arena} {owed : List NodeId} {holds : NodeId → Nat}

private theorem link {parent child : NodeId} {change : Node → Node}
    (steady : arena.Steady owed holds) (parentLive : arena.contains parent = true)
    (childLive : arena.contains child = true)
    (entered : ∀ node other, (change node).childArray.count other =
      [child].count other + node.childArray.count other) :
    ((arena.retain child).modifyNode parent change).Steady owed holds := by
  have retained := steady.retain childLive
  rw [← contains_retain arena child] at parentLive
  obtain ⟨node, owners, found⟩ := contains_iff.mp parentLive
  apply retained.modifyNode found
  intro other
  have counts := entered node other
  simp only [List.count_cons, List.count_nil] at counts ⊢
  omega

theorem pushChild (steady : arena.Steady owed holds) (parent child : NodeId) :
    (arena.pushChild parent child).2.Steady owed holds := by
  unfold Arena.pushChild
  split
  · rename_i allowed
    rw [Bool.and_eq_true] at allowed
    apply steady.link allowed.1 (contains_of_canLink allowed.2)
    intro node other
    rw [Node.childArray_push, Array.count_push, List.count_singleton, Nat.add_comm]
  · exact steady

theorem insertChild (steady : arena.Steady owed holds) (parent : NodeId) (index : Nat)
    (child : NodeId) : (arena.insertChild parent index child).2.Steady owed holds := by
  unfold Arena.insertChild
  split
  · rename_i allowed
    rw [Bool.and_eq_true] at allowed
    apply steady.link allowed.1 (contains_of_canLink allowed.2)
    intro node other
    exact count_insertIdx node.childArray (Nat.min_le_right ..) child other
  · exact steady

/-- A child that is taken and put into the place of another one, which is owed by then. -/
theorem exchange {parent child old : NodeId} {index : Nat} (steady : arena.Steady owed holds)
    (foundOld : arena.child? parent index = some old) (linkable : arena.canLink child = true) :
    (arena.exchanged parent index child).Steady (old :: owed) holds := by
  have retained := steady.retain (contains_of_canLink linkable)
  obtain ⟨node, owners, found⟩ := contains_iff.mp
    ((contains_retain arena child parent).trans (contains_of_child foundOld))
  have at_index : node.childArray[index]? = some old := by
    rw [← children_of_live found, children_retain]
    exact foundOld
  apply retained.modifyNode found
  intro other
  have counts := count_set at_index child other
  cases present : node.children with
  | none => simp [Node.childArray, present] at at_index
  | some children =>
    simp only [Node.childArray, present, Option.map_some, Option.getD_some,
      List.count_cons, List.count_nil] at counts ⊢
    omega

theorem setChild (steady : arena.Steady owed holds) (parent : NodeId) (index : Nat)
    (child : NodeId) : (arena.setChild parent index child).2.Steady owed holds := by
  rcases setChild_cases arena parent index child with
    same | ⟨-, same⟩ | ⟨old, stood, linkable, same⟩
  · rwa [same]
  · rw [same]
    exact steady.pushChild parent child
  · rw [same]
    exact (steady.exchange stood linkable).release.1

theorem drop {parent old : NodeId} {index : Nat} (steady : arena.Steady owed holds)
    (foundOld : arena.child? parent index = some old) :
    (arena.dropped parent index).Steady (old :: owed) holds := by
  obtain ⟨node, owners, found⟩ := contains_iff.mp (contains_of_child foundOld)
  have at_index : node.childArray[index]? = some old := by
    rw [← children_of_live found]
    exact foundOld
  apply steady.modifyNode found
  intro other
  have counts := count_eraseIdx at_index other
  cases present : node.children with
  | none => simp [Node.childArray, present] at at_index
  | some children =>
    simp only [Node.childArray, present, Option.map_some, Option.getD_some,
      List.count_cons, List.count_nil] at counts ⊢
    omega

theorem removeChild (steady : arena.Steady owed holds) (parent : NodeId) (index : Nat) :
    (arena.removeChild parent index).2.Steady owed holds := by
  cases foundOld : arena.child? parent index with
  | none =>
    rw [Arena.removeChild, foundOld]
    exact steady
  | some old =>
    rw [removeChild_of_child foundOld]
    exact (steady.drop foundOld).release.1

theorem releaseAll {children : List NodeId} (steady : arena.Steady (children ++ owed) holds) :
    (children.foldl Arena.release arena).Steady owed holds ∧
      arena.Wanes (children.foldl Arena.release arena) := by
  refine ⟨?_, wanes_releaseAll arena children⟩
  induction children generalizing arena with
  | nil => exact steady
  | cons child children induction => exact induction steady.release.1

theorem empty (steady : arena.Steady owed holds) (parent : NodeId) :
    (arena.emptied parent).Steady ((arena.children parent).toList ++ owed) holds := by
  unfold emptied
  cases found : arena.live? parent with
  | none =>
    rw [children_of_stale found, modifyNode_of_stale found]
    exact steady
  | some content =>
    obtain ⟨node, owners⟩ := content
    rw [children_of_live found]
    apply steady.modifyNode found
    intro other
    rw [List.count_append, Array.count_toList]
    cases present : node.children <;> simp [Node.childArray, present, Nat.add_comm]

theorem clearChildren (steady : arena.Steady owed holds) (parent : NodeId) :
    (arena.clearChildren parent).Steady owed holds := by
  rw [clearChildren_eq]
  exact (steady.empty parent).releaseAll.1

end Tearing

end RecordGraph.Arena
