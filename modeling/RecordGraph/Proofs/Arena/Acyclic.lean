import RecordGraph.Proofs.Arena.Claims

/-!
# Arenas without cycles

No node of an acyclic arena is below itself: there are ranks for the nodes, by which children rank
above their parents. Links that go away close no cycle, and neither does a link to a leaf that no
other list holds.

A node that keeps an owner in an acyclic arena can be traced back to a hold from outside. So an
arena without unowned nodes has no nodes but those below the ones that are held.
-/

namespace RecordGraph.Arena

/-! ## Links that go away -/

def Sheds (before after : Arena) : Prop :=
  ∀ parent child, child ∈ after.children parent → child ∈ before.children parent

namespace Sheds

variable {before middle after : Arena}

theorem refl (arena : Arena) : arena.Sheds arena :=
  fun _ _ => id

theorem trans (left : before.Sheds middle) (right : middle.Sheds after) : before.Sheds after :=
  fun parent child member => left parent child (right parent child member)

theorem of_live (known : ∀ {id node owners}, after.live? id = some (node, owners) →
    ∃ earlier count, before.live? id = some (earlier, count) ∧
      earlier.childArray = node.childArray) : before.Sheds after := by
  intro parent child member
  cases found : after.live? parent with
  | none => simp [children_of_stale found] at member
  | some content =>
    rcases known found with ⟨earlier, count, foundEarlier, same⟩
    rw [children_of_live foundEarlier, same, ← children_of_live found]
    exact member

theorem of_same (same : ∀ id, after.live? id = before.live? id) : before.Sheds after :=
  of_live fun found => ⟨_, _, (same _).symm.trans found, rfl⟩

end Sheds

section

variable (arena : Arena)

theorem sheds_updateLive (id : NodeId) {change : Node → Nat → SlotState}
    (kept : ∀ {node owners later count}, change node owners = .live later count →
      node.childArray = later.childArray) : arena.Sheds (arena.updateLive id change) := by
  cases known : arena.live? id with
  | none =>
    rw [updateLive_of_stale known]
    exact .refl arena
  | some content =>
    have slot := live?_eq_some_iff.mp known
    rw [updateLive_of_live known]
    apply Sheds.of_live
    intro other later count found
    by_cases same : other = id
    · subst same
      rw [live?_eq_some_iff, putSlot_slots_same slot, Option.some.injEq, Slot.mk.injEq] at found
      exact ⟨_, _, known, kept found.2⟩
    · rw [live?_putSlot_other slot same] at found
      exact ⟨_, _, found, rfl⟩

theorem sheds_retain (id : NodeId) : arena.Sheds (arena.retain id) :=
  sheds_updateLive arena id fun same => by cases same; rfl

theorem sheds_modifyNode (id : NodeId) {change : Node → Node}
    (unchanged : ∀ node, (change node).childArray = node.childArray) :
    arena.Sheds (arena.modifyNode id change) :=
  sheds_updateLive arena id fun same => by cases same; exact (unchanged _).symm

theorem sheds_ensureChildren (id : NodeId) : arena.Sheds (arena.ensureChildren id) :=
  sheds_modifyNode arena id Node.childArray_ensureChildren

theorem sheds_releaseChild (work : List NodeId) (child : NodeId) :
    arena.Sheds (releaseChild (arena, work) child).1 := by
  rcases releaseChild_cases arena work child with ⟨-, same⟩ | ⟨_, _, -, ⟨-, same⟩ | ⟨-, same⟩⟩
  · rw [same]
    exact .refl arena
  · rw [same]
    exact sheds_updateLive arena child (fun same => by cases same)
  · rw [same]
    exact sheds_updateLive arena child fun same => by cases same; rfl

theorem sheds_teardown (rounds : Nat) (work : List NodeId) :
    arena.Sheds (teardown rounds work arena) :=
  teardown_related .refl .trans (fun found => .of_same (live?_vacate found)) sheds_releaseChild
    rounds work arena

theorem sheds_destroy (id : NodeId) : arena.Sheds (arena.destroy id) :=
  (sheds_updateLive arena id fun same => by cases same).trans (sheds_teardown _ _ _)

theorem sheds_release (id : NodeId) : arena.Sheds (arena.release id) := by
  unfold release
  split
  · exact .refl arena
  · split
    · exact sheds_destroy arena id
    · exact sheds_updateLive arena id fun same => by cases same; rfl

theorem sheds_releaseIfUnowned (id : NodeId) : arena.Sheds (arena.releaseIfUnowned id) := by
  unfold releaseIfUnowned
  split
  · exact sheds_destroy arena id
  · exact .refl arena

theorem sheds_releaseAll (nodes : List NodeId) :
    arena.Sheds (nodes.foldl Arena.release arena) := by
  induction nodes generalizing arena with
  | nil => exact .refl arena
  | cons node nodes induction => exact (sheds_release arena node).trans (induction _)

end

/-! ## Leaves -/

structure Loose (arena : Arena) (leaf : NodeId) : Prop where
  issued : arena.Issued leaf
  childless : arena.children leaf = #[]
  unlisted : ∀ parent, leaf ∉ arena.children parent

def Hangs (parent leaf : NodeId) (before after : Arena) : Prop :=
  ∀ other child, child ∈ after.children other →
    child ∈ before.children other ∨ other = parent ∧ child = leaf

theorem Loose.sheds {before after : Arena} {leaf : NodeId} (loose : before.Loose leaf)
    (issued : after.Issued leaf) (sheds : before.Sheds after) : after.Loose leaf where
  issued := issued
  childless := by
    apply Array.eq_empty_iff_forall_not_mem.mpr
    intro child member
    have earlier := sheds _ _ member
    rw [loose.childless] at earlier
    exact Array.not_mem_empty child earlier
  unlisted parent member := loose.unlisted parent (sheds _ _ member)

theorem Loose.hangs {before after : Arena} {leaf parent other : NodeId} (loose : before.Loose leaf)
    (issued : after.Issued leaf) (hangs : Hangs parent other before after)
    (notParent : leaf ≠ parent) (notOther : leaf ≠ other) : after.Loose leaf where
  issued := issued
  childless := by
    apply Array.eq_empty_iff_forall_not_mem.mpr
    intro child member
    rcases hangs _ _ member with earlier | ⟨same, -⟩
    · rw [loose.childless] at earlier
      exact Array.not_mem_empty child earlier
    · exact notParent same
  unlisted asked member := by
    rcases hangs _ _ member with earlier | ⟨-, same⟩
    · exact loose.unlisted asked earlier
    · exact notOther same

section

variable {arena : Arena}

theorem Placed.children {later : Arena} {node : Node} {id : NodeId}
    (placed : arena.Placed node id later) (other : NodeId) :
    later.children other = if other = id then node.childArray else arena.children other := by
  split
  · rename_i same
    rw [same, children_of_live placed.live?_same]
  · rename_i different
    rw [Arena.children, node?, placed.live?_other different, Arena.children, node?]

theorem Placed.sheds {later : Arena} {node : Node} {id : NodeId}
    (placed : arena.Placed node id later) (childless : node.childArray = #[]) :
    arena.Sheds later := by
  intro parent child member
  rw [placed.children] at member
  split at member
  · rw [childless] at member
    exact absurd member (Array.not_mem_empty child)
  · exact member

theorem Placed.loose {later : Arena} {node : Node} {id : NodeId} {owed : List NodeId}
    {holds : NodeId → Nat} (placed : arena.Placed node id later) (childless : node.childArray = #[])
    (steady : arena.Steady owed holds) : later.Loose id where
  issued := issued_of_live placed.live?_same
  childless := by rw [placed.children, if_pos rfl, childless]
  unlisted parent member :=
    placed.not_issued (issued_of_contains (steady.child_live (placed.sheds childless _ _ member)))

theorem hangs_modifyNode {parent leaf : NodeId} {change : Node → Node}
    (entered : ∀ node child, child ∈ (change node).childArray →
      child ∈ node.childArray ∨ child = leaf) :
    Hangs parent leaf arena (arena.modifyNode parent change) := by
  intro other child member
  cases found : (arena.modifyNode parent change).live? other with
  | none => simp [children_of_stale found] at member
  | some content =>
    rw [children_of_live found] at member
    rw [live?_modifyNode] at found
    split at found
    · rename_i same
      rcases Option.map_eq_some_iff.mp found with ⟨⟨node, owners⟩, known, rfl⟩
      rcases entered node child member with earlier | new
      · left
        rwa [same, children_of_live known]
      · exact .inr ⟨same, new⟩
    · left
      rwa [children_of_live found]

theorem hangs_pushChild (parent leaf : NodeId) :
    Hangs parent leaf arena (arena.pushChild parent leaf).2 := by
  unfold pushChild
  split
  · have pushed : Hangs parent leaf (arena.retain leaf)
        ((arena.retain leaf).modifyNode parent (·.push leaf)) := by
      apply hangs_modifyNode
      intro node child member
      simpa using member
    intro other child member
    exact (pushed other child member).imp_left (sheds_retain arena leaf other child)
  · exact fun _ _ => .inl

theorem hangs_exchanged (parent : NodeId) (index : Nat) (leaf : NodeId) :
    Hangs parent leaf (arena.retain leaf) (arena.exchanged parent index leaf) := by
  apply hangs_modifyNode
  intro node child member
  cases present : node.children with
  | none => simp [Node.childArray, present] at member
  | some children =>
    simp only [Node.childArray, present, Option.map_some, Option.getD_some] at member ⊢
    exact Array.mem_or_eq_of_mem_setIfInBounds member

theorem hangs_setChild (parent : NodeId) (index : Nat) (leaf : NodeId) :
    Hangs parent leaf arena (arena.setChild parent index leaf).2 := by
  rcases setChild_cases arena parent index leaf with same | ⟨-, same⟩ | ⟨old, -, -, same⟩
  · rw [same]
    exact fun _ _ => .inl
  · rw [same]
    exact hangs_pushChild parent leaf
  · rw [same]
    intro other child member
    have stood := sheds_release (arena.exchanged parent index leaf) old other child member
    exact (hangs_exchanged parent index leaf other child stood).imp_left
      (sheds_retain arena leaf other child)

end

/-! ## Ranks -/

inductive Below (arena : Arena) (root : NodeId) : NodeId → Prop where
  | child {id : NodeId} (member : id ∈ arena.children root) : arena.Below root id
  | deeper {parent id : NodeId} (below : arena.Below root parent)
      (member : id ∈ arena.children parent) : arena.Below root id

theorem Below.trans {arena : Arena} {first second third : NodeId} (left : arena.Below first second)
    (right : arena.Below second third) : arena.Below first third := by
  induction right with
  | child member => exact left.deeper member
  | deeper _ member induction => exact induction.deeper member

theorem Below.mem {arena : Arena} {root id : NodeId} {ids : List NodeId}
    (closed : ∀ parent ∈ root :: ids, ∀ child ∈ arena.children parent, child ∈ ids)
    (below : arena.Below root id) : id ∈ ids := by
  induction below with
  | child member => exact closed root List.mem_cons_self _ member
  | deeper _ member induction => exact closed _ (List.mem_cons_of_mem root induction) _ member

def Acyclic (arena : Arena) : Prop :=
  ∃ rank : NodeId → Nat, ∀ parent child, child ∈ arena.children parent →
    rank parent < rank child

theorem rank_lt_of_below {arena : Arena} {rank : NodeId → Nat}
    (rises : ∀ parent child, child ∈ arena.children parent → rank parent < rank child)
    {root id : NodeId} (below : arena.Below root id) : rank root < rank id := by
  induction below with
  | child member => exact rises _ _ member
  | deeper _ member induction => exact Nat.lt_trans induction (rises _ _ member)

namespace Acyclic

variable {before after arena : Arena}

theorem sheds (acyclic : before.Acyclic) (sheds : before.Sheds after) : after.Acyclic := by
  rcases acyclic with ⟨rank, rises⟩
  exact ⟨rank, fun parent child member => rises parent child (sheds parent child member)⟩

/-- The leaf gets the rank after that of its parent. It has no children that would have to rank
higher. -/
theorem hangs {parent leaf : NodeId} (acyclic : before.Acyclic) (loose : before.Loose leaf)
    (different : leaf ≠ parent) (hangs : Hangs parent leaf before after) : after.Acyclic := by
  rcases acyclic with ⟨rank, rises⟩
  refine ⟨fun id => if id = leaf then rank parent + 1 else rank id, ?_⟩
  intro other child member
  rcases hangs _ _ member with earlier | ⟨rfl, rfl⟩
  · have notLeaf : other ≠ leaf := by
      rintro rfl
      rw [loose.childless] at earlier
      exact Array.not_mem_empty child earlier
    have notChild : child ≠ leaf := by
      rintro rfl
      exact loose.unlisted other earlier
    simpa only [if_neg notLeaf, if_neg notChild] using rises other child earlier
  · simp only [if_neg different.symm, ↓reduceIte]
    exact Nat.lt_succ_self _

end Acyclic

theorem acyclic_empty : Arena.empty.Acyclic :=
  ⟨fun _ => 0, fun parent child member => by simp [children, node?, live?, empty] at member⟩

end RecordGraph.Arena
