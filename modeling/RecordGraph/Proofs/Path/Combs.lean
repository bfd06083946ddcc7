import RecordGraph.Proofs.Arena.Combs
import RecordGraph.Proofs.Path.Paving

/-!
# Combs that paths make

Nothing stands below a leaf, so a path that leads on from it has to make every child list on its
way. It makes each as long as the index asks, of leaves without attributes, and goes on from the
last of them. What comes about is a comb.
-/

namespace RecordGraph.Path

open RecordGraph.Arena (Alike Bare Comb)

def Blank (arena : Arena) (id : NodeId) (owners : Nat) : Prop :=
  ∃ node : Node, arena.live? id = some (node, owners) ∧ node.childArray = #[] ∧ node.attrs = none

namespace Blank

variable {arena later : Arena} {id : NodeId} {owners : Nat}

theorem contains (blank : Blank arena id owners) : arena.contains id = true := by
  rcases blank with ⟨node, found, -⟩
  exact Arena.contains_iff.mpr ⟨node, owners, found⟩

theorem bare (blank : Blank arena id owners) : arena.Bare id := by
  rcases blank with ⟨node, found, childless, unmarked⟩
  refine ⟨by rw [Arena.children_of_live found, childless], ?_⟩
  simp [Arena.attrs?, Arena.node?, found, unmarked]

theorem of_live? (blank : Blank arena id owners) (same : later.live? id = arena.live? id) :
    Blank later id owners := by
  rcases blank with ⟨node, found, bare⟩
  exact ⟨node, same.trans found, bare⟩

end Blank

structure Adds (arena : Arena) (parent : NodeId) (nodes : List NodeId) (later : Arena) : Prop where
  wellFormed : later.WellFormed
  nodup : nodes.Nodup
  new : ∀ id ∈ nodes, arena.contains id = false
  live : ∀ id ∈ nodes, later.contains id = true
  attrs : later.attrs? parent = arena.attrs? parent
  others : ∀ id, id ∉ nodes → id ≠ parent → later.live? id = arena.live? id
  count : later.live = arena.live + nodes.length

theorem contains_iff_attrs? {arena : Arena} {id : NodeId} :
    arena.contains id = true ↔ (arena.attrs? id).isSome = true := by
  simp [Arena.attrs?, Arena.node?, Arena.contains]

namespace Adds

variable {arena middle later : Arena} {parent child : NodeId} {nodes more : List NodeId}

theorem refl (wellFormed : arena.WellFormed) (parent : NodeId) : Adds arena parent [] arena where
  wellFormed := wellFormed
  nodup := List.nodup_nil
  new := nofun
  live := nofun
  attrs := rfl
  others _ _ _ := rfl
  count := rfl

theorem not_mem (adds : Adds arena parent nodes later) {id : NodeId}
    (live : arena.contains id = true) : id ∉ nodes := fun member => by
  rw [adds.new id member] at live
  cases live

theorem contains (adds : Adds arena parent nodes later) {id : NodeId}
    (live : arena.contains id = true) : later.contains id = true := by
  by_cases same : id = parent
  · subst same
    rwa [contains_iff_attrs?, adds.attrs, ← contains_iff_attrs?]
  · rwa [Arena.contains, adds.others id (adds.not_mem live) same]

theorem trans (left : Adds arena parent nodes middle) (live : arena.contains parent = true)
    (among : child ∈ parent :: nodes) (right : Adds middle child more later) :
    Adds arena parent (nodes ++ more) later where
  wellFormed := right.wellFormed
  nodup := List.nodup_append.mpr ⟨left.nodup, right.nodup, fun id member other memberToo same => by
    subst same
    exact right.not_mem (left.live id member) memberToo⟩
  new id member := by
    rcases List.mem_append.mp member with member | member
    · exact left.new id member
    · exact Bool.eq_false_iff.mpr fun earlier => right.not_mem (left.contains earlier) member
  live id member := by
    rcases List.mem_append.mp member with member | member
    · exact right.contains (left.live id member)
    · exact right.live id member
  attrs := by
    by_cases same : child = parent
    · rw [← same, right.attrs, same, left.attrs]
    · have old := right.not_mem (left.contains live)
      rw [(Alike.of_live? (right.others parent old (Ne.symm same))).attrs, left.attrs]
  others id apart notParent := by
    rw [List.mem_append, not_or] at apart
    have notChild : id ≠ child := by
      rintro rfl
      exact (List.mem_cons.mp among).elim notParent apart.1
    rw [right.others id apart.2 notChild, left.others id apart.1 notParent]
  count := by
    rw [right.count, left.count, List.length_append, Nat.add_assoc]

theorem push {leaf : Node} (wellFormed : arena.WellFormed) (childless : leaf.childArray = #[])
    (unmarked : leaf.attrs = none) (live : arena.contains parent = true) :
    let stored := arena.alloc leaf
    let pushed := (stored.2.pushChild parent stored.1).2
    Adds arena parent [stored.1] pushed ∧ Blank pushed stored.1 1 ∧
      pushed.children parent = (arena.children parent).push stored.1 := by
  have placed := Arena.placed_alloc wellFormed childless
  have counted : (arena.alloc leaf).2.live = arena.live + 1 := Arena.live_alloc_leaf childless
  have sound := Arena.wellFormed_pushChild (Arena.wellFormed_alloc wellFormed leaf) parent
    (arena.alloc leaf).1
  generalize arena.alloc leaf = stored at placed counted sound
  rcases stored with ⟨id, later⟩
  have reads := placed.live?_pushChild live
  have notParent : id ≠ parent := (placed.ne_parent live).symm
  rcases Arena.contains_iff.mp live with ⟨node, owners, found⟩
  have foundParent : (later.pushChild parent id).2.live? parent = some (node.push id, owners) := by
    rw [reads, if_pos rfl, found, Option.map_some]
  have foundLeaf : (later.pushChild parent id).2.live? id = some (leaf, 1) := by
    rw [reads, if_neg notParent, if_pos rfl]
  have same : (later.pushChild parent id).2 = (later.retain id).modifyNode parent (·.push id) := by
    rw [placed.pushChild_eq live]
  refine ⟨⟨sound, List.nodup_singleton id, fun asked member => ?_, fun asked member => ?_, ?_,
    fun asked apart other => ?_, ?_⟩, ⟨leaf, foundLeaf, childless, unmarked⟩, ?_⟩
  · rw [List.mem_singleton.mp member, Arena.contains, placed.live?_before]
    rfl
  · rw [List.mem_singleton.mp member]
    exact Arena.contains_iff.mpr ⟨leaf, 1, foundLeaf⟩
  · rw [Arena.attrs?, Arena.attrs?, Arena.node?, Arena.node?, foundParent, found]
    rcases node with ⟨_, _, _, _ | children, _, _⟩ <;> rfl
  · rw [reads, if_neg other, if_neg fun same => apart (List.mem_singleton.mpr same)]
  · rw [same]
    exact counted
  · rw [Arena.children_of_live foundParent, Arena.children_of_live found, Node.childArray_push]

theorem ensureChildren (wellFormed : arena.WellFormed) (parent : NodeId) :
    Adds arena parent [] (arena.ensureChildren parent) where
  wellFormed := Arena.wellFormed_modifyNode wellFormed parent _
  nodup := List.nodup_nil
  new := nofun
  live := nofun
  attrs := by
    rw [Arena.attrs?, Arena.attrs?, Arena.node?, Arena.node?, Arena.ensureChildren,
      Arena.live?_modifyNode, if_pos rfl]
    cases arena.live? parent with
    | none => rfl
    | some content => rcases content with ⟨⟨_, _, _, _ | children, _, _⟩, owners⟩ <;> rfl
  others id _ different := by rw [Arena.ensureChildren, Arena.live?_modifyNode, if_neg different]
  count := rfl

end Adds

section

variable {table : SymbolTable} (direct : table.registry.Direct) (template : Option NodeId)

include direct

theorem adds_fillUp {parent : NodeId} {index rounds : Nat} {arena : Arena}
    (wellFormed : arena.WellFormed) (live : arena.contains parent = true)
    (lacking : arena.childCount parent + rounds = index + 1) :
    ∃ nodes : List NodeId, nodes.length = rounds ∧
      let later := fillUp table.registry template parent index rounds arena
      Adds arena parent nodes later ∧ (∀ id ∈ nodes, Blank later id 1) ∧
        later.children parent = arena.children parent ++ nodes.toArray := by
  induction rounds generalizing arena with
  | zero => exact ⟨[], rfl, .refl wellFormed parent, nofun, by simp [fillUp]⟩
  | succ rounds induction =>
    rcases freshNode_bare direct template "" arena with ⟨leaf, childless, unmarked, same⟩
    have placed := Arena.placed_alloc wellFormed childless
    rcases Adds.push wellFormed childless unmarked live with ⟨added, blank, listed⟩
    have short : ¬ index < arena.childCount parent := by omega
    have filled : fillUp table.registry template parent index (rounds + 1) arena =
        fillUp table.registry template parent index rounds
          ((arena.alloc leaf).2.pushChild parent (arena.alloc leaf).1).2 := by
      conv_lhs => unfold fillUp
      simp only [short, ↓reduceIte, same, placed.pushed live]
    rw [filled]
    generalize ((arena.alloc leaf).2.pushChild parent (arena.alloc leaf).1).2 = pushed
      at added blank listed
    generalize (arena.alloc leaf).1 = first at added blank listed
    have count : pushed.childCount parent = arena.childCount parent + 1 := by
      rw [Arena.childCount, listed, Array.size_push, Arena.childCount]
    have livePushed := added.contains live
    rcases induction added.wellFormed livePushed (by omega) with
      ⟨nodes, length, more, blanks, listedMore⟩
    have apart := more.not_mem blank.contains
    have notParent : first ≠ parent := fun same =>
      added.not_mem live (List.mem_singleton.mpr same.symm)
    refine ⟨first :: nodes, by rw [List.length_cons, length],
      added.trans live List.mem_cons_self more, List.forall_mem_cons.mpr ⟨?_, blanks⟩, ?_⟩
    · exact blank.of_live? (more.others first apart notParent)
    · rw [listedMore, listed]
      simp

/-- At a leaf an index within the bound makes a row that ends with the child at the index. -/
theorem row_childAt {parent : NodeId} {owners index : Nat} {arena : Arena}
    (wellFormed : arena.WellFormed) (blank : Blank arena parent owners) (small : index < 65536)
    (cursor : Cursor) :
    ∃ (teeth : List NodeId) (child : NodeId) (roomy : Arena), teeth.length = index ∧
      childAt table true template parent index ⟨cursor, arena⟩ = .ok (some child) ⟨cursor, roomy⟩ ∧
      Adds arena parent (teeth ++ [child]) roomy ∧ (∀ id ∈ teeth ++ [child], Blank roomy id 1) ∧
      roomy.children parent = (teeth ++ [child]).toArray := by
  have live := blank.contains
  have bare : arena.childCount parent = 0 := by rw [Arena.childCount, blank.bare.children]; rfl
  have ensured := Adds.ensureChildren wellFormed parent
  have childless : (arena.ensureChildren parent).children parent = #[] := by
    rw [Arena.ensureChildren,
      Arena.children_modifyNode arena parent parent Node.childArray_ensureChildren,
      blank.bare.children]
  have lacking : (arena.ensureChildren parent).childCount parent + (index + 1) = index + 1 := by
    rw [Arena.childCount, childless, Array.size_empty, Nat.zero_add]
  rcases adds_fillUp direct template ensured.wellFormed (ensured.contains live) lacking with
    ⟨nodes, length, added, blanks, listed⟩
  have present : nodes ≠ [] := by
    rintro rfl
    cases length
  rcases List.eq_nil_or_concat nodes with none | ⟨teeth, child, rfl⟩
  · exact absurd none present
  simp only [List.concat_eq_append, List.length_append, List.length_singleton,
    Nat.add_right_cancel_iff] at length added blanks listed
  rw [childless, Array.empty_append] at listed
  have room : makeRoom table template parent index ⟨cursor, arena⟩ = .ok () ⟨cursor,
      fillUp table.registry template parent index (index + 1) (arena.ensureChildren parent)⟩ := by
    have allowed : DepthLimit.padding.allows (index + 1) = true :=
      (DepthLimit.allows_iff _ _).mpr small
    unfold makeRoom
    refine bind_eq_ok_iff.mpr ⟨_, _, rfl, ?_⟩
    simp only [bare, Nat.not_lt_zero, ↓reduceIte, allowed, Nat.sub_zero]
    rfl
  refine ⟨teeth, child, _, length, ?_, ensured.trans live List.mem_cons_self added, blanks, listed⟩
  unfold childAt
  rw [if_pos rfl]
  refine bind_eq_ok_iff.mpr ⟨_, _, room, ?_⟩
  have stands : (fillUp table.registry template parent index (index + 1)
      (arena.ensureChildren parent)).child? parent index = some child := by
    rw [Arena.child?, listed, ← length]
    simp
  rw [← stands]
  rfl

/-- Indices within the bound make a comb below a leaf. The last place is that of its tip. -/
theorem combs_followIndices {indices : List (List Char)} {rest rounds : List Char}
    (indexed : Indexed indices rounds) (ends : rest.head? ≠ some '[') (small : ∀ digits ∈ indices, indexOf digits < 65536)
    {origin : NodeId} {owners : Nat} {arena : Arena}
    (wellFormed : arena.WellFormed)
    (blank : Blank arena origin owners) (place : Option (NodeId × Nat)) (position : Nat) :
    ∃ tip last nodes later, followIndices table true template rounds (some origin) place
        ⟨⟨position, bracketed indices ++ rest⟩, arena⟩ =
          .ok (some tip, last) ⟨.behind position indices rest, later⟩ ∧
      Adds arena origin nodes later ∧ later.Comb origin (indices.map indexOf) tip nodes ∧
      (indices = [] ∧ last = place ∧ tip = origin ∧ later = arena ∨
        ∃ front index parent, indices.map indexOf = front ++ [index] ∧
          last = some (parent, index) ∧ later.descend origin front = some parent ∧
          Blank later tip 1) := by
  induction indexed generalizing arena origin owners place position with
  | nil =>
    exact ⟨origin, place, [], arena, followIndices_of_no_bracket ends, .refl wellFormed origin,
      .tip origin, .inl ⟨rfl, rfl, rfl, rfl⟩⟩
  | @cons digits indices round rounds present isDigit _ induction =>
    rcases List.forall_mem_cons.mp small with ⟨within, smaller⟩
    have bounded : indexOf digits < indexBound :=
      Nat.lt_trans within (by decide +kernel)
    rcases row_childAt direct template wellFormed blank within
      ⟨position + 1 + byteSize digits, ']' :: (bracketed indices ++ rest)⟩ with
      ⟨teeth, child, roomy, length, found, row, blanks, listed⟩
    have childBlank := blanks child (List.mem_append_right _ (List.mem_singleton_self child))
    rcases induction smaller row.wellFormed childBlank
      (some (origin, indexOf digits)) (position + 1 + byteSize digits + 1) with
      ⟨tip, last, nodes, later, followed, deeper, comb, placed⟩
    have added := row.trans blank.contains
      (List.mem_cons_of_mem _ (List.mem_append_right _ (List.mem_singleton_self child))) deeper
    have notOrigin : origin ≠ child := fun same =>
      row.not_mem blank.contains (List.mem_append_right _ (List.mem_singleton.mpr same))
    have originKept :=
      deeper.others origin (deeper.not_mem (row.contains blank.contains)) notOrigin
    have teethKept (id : NodeId) (member : id ∈ teeth) : later.Bare id := by
      have blankTooth := blanks id (List.mem_append_left _ member)
      have notChild : id ≠ child :=
        (List.nodup_append.mp row.nodup).2.2 id member child (List.mem_singleton_self child)
      have kept := deeper.others id (deeper.not_mem blankTooth.contains) notChild
      exact (blankTooth.of_live? kept).bare
    have rowComb : later.Comb origin (teeth.length :: indices.map indexOf) tip
        (teeth ++ child :: nodes) :=
      .row (by rw [(Alike.of_live? originKept).attrs, row.attrs, blank.bare.attrs])
        (by rw [(Alike.of_live? originKept).children, listed]) teethKept comb
    have stands : later.child? origin (indexOf digits) = some child := by
      rw [Arena.child?, (Alike.of_live? originKept).children, listed, ← length]
      simp
    refine ⟨tip, last, teeth ++ child :: nodes, later, ?_, ?_, ?_, .inr ?_⟩
    · rw [bracketed_cons, ← behind_cons]
      exact (followIndices_cons_eq_ok_iff rfl).mpr ⟨_, indexOf digits, _, child, _, roomy, _, rfl,
        (indexValue_eq_ok_iff present isDigit).mpr ⟨bounded, rfl, rfl⟩, found, closeBracket_eq _,
        followed⟩
    · simpa using added
    · rw [List.map_cons, ← length]
      exact rowComb
    · rcases placed with
        ⟨rfl, rfl, rfl, rfl⟩ | ⟨front, index, parent, numbers, lastPlace, way, tipBlank⟩
      · exact ⟨[], indexOf digits, origin, rfl, rfl, rfl, childBlank⟩
      · refine ⟨indexOf digits :: front, index, parent, by rw [List.map_cons, numbers]; rfl,
          lastPlace, ?_, tipBlank⟩
        rw [Arena.descend, stands, Option.bind_some, way]

end

end RecordGraph.Path
