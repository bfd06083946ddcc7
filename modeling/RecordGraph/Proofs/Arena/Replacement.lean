import RecordGraph.Proofs.Arena.Enrichment
import RecordGraph.Proofs.Arena.Leaf
import RecordGraph.Proofs.Arena.Ledger

/-!
# One child in the place of another

A child list is changed at one place, and the child that stood there was a leaf. Then every way
along child lists leads where it led before, and the way that ended at this place leads to the new
child. No node that stays has its attributes changed by that.
-/

namespace RecordGraph.Arena

/-! ## Ways along child lists -/

def descend (arena : Arena) : NodeId → List Nat → Option NodeId
  | node, [] => some node
  | node, index :: indices => (arena.child? node index).bind (arena.descend · indices)

theorem descend_append (arena : Arena) (origin : NodeId) (front back : List Nat) :
    arena.descend origin (front ++ back) =
      (arena.descend origin front).bind (arena.descend · back) := by
  induction front generalizing origin with
  | nil => rfl
  | cons index front induction =>
    rw [List.cons_append, descend, descend, Option.bind_assoc]
    congr 1
    funext child
    exact induction child

theorem descend_singleton (arena : Arena) (node : NodeId) (index : Nat) :
    arena.descend node [index] = arena.child? node index :=
  Option.bind_fun_some _

theorem descend_of_child {arena later : Arena}
    (kept : ∀ {parent child index}, arena.child? parent index = some child →
      later.child? parent index = some child)
    {origin node : NodeId} {indices : List Nat}
    (reached : arena.descend origin indices = some node) :
    later.descend origin indices = some node := by
  induction indices generalizing origin with
  | nil => exact reached
  | cons index indices induction =>
    rcases Option.bind_eq_some_iff.mp reached with ⟨child, stands, onward⟩
    rw [descend, kept stands, Option.bind_some, induction onward]

theorem contains_of_descend {arena : Arena}
    (children : ∀ parent child, child ∈ arena.children parent → arena.contains child = true)
    {origin node : NodeId} (live : arena.contains origin = true) {indices : List Nat}
    (reached : arena.descend origin indices = some node) : arena.contains node = true := by
  induction indices generalizing origin with
  | nil =>
    cases reached
    exact live
  | cons index indices induction =>
    rcases Option.bind_eq_some_iff.mp reached with ⟨child, stands, onward⟩
    exact induction (children origin child (Array.mem_of_getElem? stands)) onward

def Replaces (arena : Arena) (parent : NodeId) (index : Nat) (child : NodeId)
    (later : Arena) : Prop :=
  ∀ asked place, later.child? asked place =
    if asked = parent ∧ place = index then some child else arena.child? asked place

section

variable {arena later : Arena} {parent child old : NodeId} {index : Nat}

/-- A way that ends at the place leads to the new child if nothing stood below the old one, for then
the way met the place at its end only. -/
theorem Replaces.descend (replaces : arena.Replaces parent index child later)
    (stood : arena.child? parent index = some old) (childless : arena.children old = #[])
    {origin : NodeId} {indices : List Nat} (way : arena.descend origin indices = some parent) :
    later.descend origin (indices ++ [index]) = some child := by
  induction indices generalizing origin with
  | nil =>
    cases way
    simp [Arena.descend, replaces parent index]
  | cons first indices induction =>
    rcases Option.bind_eq_some_iff.mp way with ⟨next, stands, onward⟩
    have other : ¬ (origin = parent ∧ first = index) := by
      rintro ⟨rfl, rfl⟩
      rw [stands] at stood
      cases stood
      -- the way would go on below the old child, or end there
      have bare (place : Nat) : arena.child? old place = none := by
        rw [child?, childless, Array.getElem?_empty]
      cases indices with
      | nil =>
        cases onward
        rw [bare] at stands
        cases stands
      | cons second indices => simp [Arena.descend, bare] at onward
    rw [List.cons_append, Arena.descend, replaces, if_neg other, stands, Option.bind_some,
      induction onward]

end

/-! ## Attributes that stay -/

structure KeepsAttrs (arena later : Arena) : Prop where
  node : ∀ {id node}, arena.node? id = some node →
    ∃ content, later.node? id = some content ∧ content.attrs = node.attrs

namespace KeepsAttrs

variable {arena middle later : Arena}

theorem refl (arena : Arena) : arena.KeepsAttrs arena :=
  ⟨fun {_ node} found => ⟨node, found, rfl⟩⟩

theorem trans (left : arena.KeepsAttrs middle) (right : middle.KeepsAttrs later) :
    arena.KeepsAttrs later where
  node found := by
    rcases left.node found with ⟨between, foundBetween, same⟩
    rcases right.node foundBetween with ⟨content, foundLater, sameLater⟩
    exact ⟨content, foundLater, sameLater.trans same⟩

theorem andSame (kept : arena.KeepsAttrs middle)
    (same : ∀ id, arena.contains id = true → later.live? id = middle.live? id) :
    arena.KeepsAttrs later where
  node {id node} found := by
    rcases kept.node found with ⟨content, foundMiddle, attrs⟩
    refine ⟨content, ?_, attrs⟩
    rwa [node?, same id (contains_iff_node?.mpr ⟨node, found⟩)]

theorem modifyNode (arena : Arena) (id : NodeId) {change : Node → Node}
    (kept : ∀ node, (change node).attrs = node.attrs) :
    arena.KeepsAttrs (arena.modifyNode id change) where
  node {asked node} found := by
    rw [node?, live?_modifyNode]
    split
    · rename_i same
      subst same
      rw [node?] at found
      cases content : arena.live? asked with
      | none => simp [content] at found
      | some pair =>
        simp only [content, Option.map_some, Option.some.injEq] at found
        exact ⟨_, rfl, found ▸ kept pair.1⟩
    · exact ⟨node, found, rfl⟩

theorem retain (arena : Arena) (id : NodeId) : arena.KeepsAttrs (arena.retain id) where
  node {asked node} found := by
    refine ⟨node, ?_, rfl⟩
    rw [node?, live?_retain]
    split
    · rename_i same
      subst same
      simpa [node?, Function.comp_def] using found
    · exact found

theorem alloc {node : Node} (wellFormed : arena.WellFormed) (childless : node.childArray = #[]) :
    arena.KeepsAttrs (arena.alloc node).2 := by
  have placed := placed_alloc wellFormed childless
  refine (refl arena).andSame fun id live => placed.live?_other ?_
  rintro rfl
  rw [contains, placed.live?_before] at live
  cases live

theorem attrById? (kept : arena.KeepsAttrs later) {id : NodeId} (live : arena.contains id = true)
    (attr : AttrId) : later.attrById? id attr = arena.attrById? id attr := by
  rcases contains_iff_node?.mp live with ⟨node, found⟩
  rcases kept.node found with ⟨content, foundLater, same⟩
  rw [Arena.attrById?, Arena.attrById?, found, foundLater, Option.bind_some, Option.bind_some,
    Node.attr?, Node.attr?, same]

end KeepsAttrs

/-! ## A node in the place of a leaf -/

section

variable {arena : Arena} {parent child old : NodeId} {index owners : Nat} {oldNode leaf : Node}
  (stood : arena.child? parent index = some old)
  (foundOld : arena.live? old = some (oldNode, owners)) (oldChildless : oldNode.childArray = #[])
  (free : arena.live? child = some (leaf, 0)) (childless : leaf.childArray = #[])
  (different : old ≠ child)

include stood

theorem ne_of_childless {node : Node} {id : NodeId} {owners : Nat}
    (found : arena.live? id = some (node, owners)) (childless : node.childArray = #[]) :
    id ≠ parent := by
  rintro rfl
  rw [child?, children_of_live found, childless] at stood
  cases stood

theorem replaces_exchanged (child : NodeId) :
    arena.Replaces parent index child (arena.exchanged parent index child) := by
  intro asked place
  have inside : index < (arena.children parent).size := (Array.getElem?_eq_some_iff.mp stood).1
  rw [child?, children_exchanged]
  by_cases same : asked = parent
  · subst same
    rw [if_pos rfl, Array.getElem?_setIfInBounds]
    by_cases here : index = place
    · rw [if_pos here, if_pos (here ▸ inside), if_pos ⟨rfl, here.symm⟩]
    · rw [if_neg here, if_neg fun both => here both.2.symm, child?]
  · rw [if_neg same, if_neg fun both => same both.1, child?]

include foundOld oldChildless free childless different

theorem setChild_of_leaf :
    ∃ linked, (arena.setChild parent index child).2 = linked.release old ∧
      linked.live? old = some (oldNode, owners) ∧ linked.live? child = some (leaf, 1) ∧
      arena.Replaces parent index child linked ∧ arena.KeepsAttrs linked ∧
      linked.names = arena.names := by
  have childNotParent := ne_of_childless stood free childless
  have oldNotParent := ne_of_childless stood foundOld oldChildless
  have linkable : arena.canLink child = true := by simp [canLink, free]
  refine ⟨arena.exchanged parent index child, ?_, ?_, ?_, replaces_exchanged stood child, ?_, rfl⟩
  · rw [setChild_of_child stood, if_pos ⟨different, linkable⟩]
  · rw [live?_exchanged oldNotParent, if_neg different, foundOld]
  · rw [live?_exchanged childNotParent, if_pos rfl, free]
    rfl
  · exact (KeepsAttrs.retain arena child).trans (.modifyNode _ parent fun _ => rfl)

theorem setChild_replaces :
    arena.Replaces parent index child (arena.setChild parent index child).2 ∧
      (arena.setChild parent index child).2.names = arena.names ∧
      (arena.setChild parent index child).2.live? child = some (leaf, 1) := by
  rcases setChild_of_leaf stood foundOld oldChildless free childless different with
    ⟨linked, released, linkedOld, linkedChild, replaces, -, names⟩
  rw [released]
  refine ⟨fun asked place => ?_, ?_, ?_⟩
  · rw [child?, children_release_leaf linkedOld oldChildless, ← replaces, child?]
  · rw [names_release_leaf linkedOld oldChildless, names]
  · rw [live?_release_leaf linkedOld oldChildless (Ne.symm different), linkedChild]

theorem KeepsAttrs.setChild {origin : Arena} (kept : origin.KeepsAttrs arena)
    (new : origin.contains old = false) :
    origin.KeepsAttrs (arena.setChild parent index child).2 := by
  rcases setChild_of_leaf stood foundOld oldChildless free childless different with
    ⟨linked, released, linkedOld, -, -, keptLinked, -⟩
  rw [released]
  refine (kept.trans keptLinked).andSame fun id live => live?_release_leaf linkedOld oldChildless ?_
  rintro rfl
  rw [new] at live
  cases live

end

end RecordGraph.Arena
