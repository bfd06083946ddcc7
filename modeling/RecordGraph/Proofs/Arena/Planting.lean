import RecordGraph.Proofs.Arena.Acyclic
import RecordGraph.Proofs.Arena.Claims

/-!
# Trees of new nodes

New nodes are stored as trees. A new node brings along children that are new themselves and have no
owner yet, so every new node but the tops is in one child list. A tree is planted when its top is
pushed under a node that was there before.
-/

namespace RecordGraph.Arena

def Fresh (before after : Arena) (id : NodeId) : Prop :=
  after.Issued id ∧ ¬ before.Issued id

/-- New nodes were stored one after the other, each with children among the new ones that had no
owner so far. The tops are the new nodes that are left without one. -/
inductive Sprouts (before : Arena) : List NodeId → Arena → Prop where
  | start : before.Sprouts [] before
  | alloc {tops : List NodeId} {arena : Arena} (node : Node) (sprouts : before.Sprouts tops arena)
      (distinct : node.childArray.toList.Nodup) (among : ∀ child ∈ node.childArray, child ∈ tops) :
      before.Sprouts ((arena.alloc node).1 :: tops.filter (· ∉ node.childArray))
        (arena.alloc node).2
  | names {tops : List NodeId} {arena : Arena} (names : NameTable)
      (sprouts : before.Sprouts tops arena) : before.Sprouts tops { arena with names }

/-- The new nodes form trees with the given tops, and of the old nodes only the roots may have
changed. The ranks of new nodes rise from parent to child. -/
structure Plants (holds : NodeId → Nat) (roots tops : List NodeId) (before after : Arena) :
    Prop where
  steady : after.Steady [] holds
  issued : ∀ {id}, before.Issued id → after.Issued id
  kept : ∀ {id}, before.Issued id → id ∉ roots → after.live? id = before.live? id
  top_fresh : ∀ {id}, id ∈ tops → before.Fresh after id
  live : ∀ {id}, before.Fresh after id → after.contains id = true
  closed : ∀ {id child}, before.Fresh after id → child ∈ after.children id →
    before.Fresh after child
  owners : ∀ {id}, before.Fresh after id → after.ownerCount id = if id ∈ tops then 0 else 1
  ranked : ∃ rank : NodeId → Nat, ∀ id child, before.Fresh after id →
    child ∈ after.children id → rank id < rank child

/-! ## Reading after nodes were linked or stored -/

section Read

variable {arena : Arena}

theorem children_congr {before after : Arena} {id : NodeId}
    (same : after.live? id = before.live? id) : after.children id = before.children id := by
  simp only [children, node?, same]

theorem issued_retainAll_iff (nodes : List NodeId) (arena : Arena) (id : NodeId) :
    (nodes.foldl retain arena).Issued id ↔ arena.Issued id := by
  induction nodes generalizing arena with
  | nil => exact Iff.rfl
  | cons node nodes induction =>
    exact (induction (arena.retain node)).trans (issued_updateLive_iff node (by simp))

theorem adopt_of_live {node : Node}
    (live : ∀ child ∈ node.childArray, arena.contains child = true) :
    arena.adopt node = (node, node.childArray.toList.foldl retain arena) := by
  rcases node with ⟨name, nodeType, attrs, _ | children, status, shareable⟩
  · rfl
  · have all : children.filter arena.contains = children := Array.filter_eq_self.mpr live
    simp only [adopt, all, Node.childArray, Option.getD_some, Array.foldl_toList]

structure Stored (arena : Arena) (node : Node) (id : NodeId) (later : Arena) : Prop where
  new : ¬ arena.Issued id
  issued_iff : ∀ other, later.Issued other ↔ other = id ∨ arena.Issued other
  live?_same : later.live? id = some (node, 0)
  live?_other : ∀ other, other ≠ id → later.live? other =
    (arena.live? other).map fun content => (content.1, content.2 + node.childArray.count other)

theorem stored_alloc (wellFormed : arena.WellFormed) {node : Node}
    (live : ∀ child ∈ node.childArray, arena.contains child = true) :
    arena.Stored node (arena.alloc node).1 (arena.alloc node).2 := by
  have retained := wellFormed_adopt wellFormed node
  rw [adopt_of_live live] at retained
  have issued := issued_retainAll_iff node.childArray.toList arena
  have counted := live?_retainAll node.childArray.toList arena
  simp only [alloc, adopt_of_live live]
  -- the children are retained before the node is placed
  generalize node.childArray.toList.foldl retain arena = middle at retained issued counted ⊢
  have placed := placed_place retained node
  constructor
  · exact fun earlier => placed.not_issued ((issued _).mpr earlier)
  · intro other
    constructor
    · intro given
      by_cases earlier : arena.Issued other
      · exact .inr earlier
      · exact .inl (placed.eq_of_issued given (earlier ∘ (issued other).mp))
    · rintro (rfl | earlier)
      · exact issued_of_live placed.live?_same
      · exact placed.issued ((issued other).mpr earlier)
  · exact placed.live?_same
  · intro other different
    rw [placed.live?_other different, counted, Array.count_toList]

end Read

namespace Plants

variable {holds : NodeId → Nat} {roots tops : List NodeId} {top : NodeId}
  {before middle after arena : Arena}

theorem refl (steady : arena.Steady [] holds) (roots : List NodeId) :
    Plants holds roots [] arena arena where
  steady := steady
  issued := id
  kept _ _ := rfl
  top_fresh member := absurd member List.not_mem_nil
  live fresh := absurd fresh.1 fresh.2
  closed fresh := absurd fresh.1 fresh.2
  owners fresh := absurd fresh.1 fresh.2
  ranked := ⟨fun _ => 0, fun _ _ fresh => absurd fresh.1 fresh.2⟩

theorem not_below_self (plants : Plants holds roots tops before after) {later : Arena}
    (listed : ∀ {id child}, ¬ before.Issued id → child ∈ later.children id →
      child ∈ after.children id) {id : NodeId} (new : ¬ before.Issued id) :
    ¬ later.Below id id := by
  rcases plants.ranked with ⟨rank, rises⟩
  have step {parent child : NodeId} (new : ¬ before.Issued parent)
      (member : child ∈ later.children parent) :
      ¬ before.Issued child ∧ rank parent < rank child := by
    have stands := listed new member
    have fresh : before.Fresh after parent :=
      ⟨issued_of_contains (contains_of_mem_children stands), new⟩
    exact ⟨(plants.closed fresh stands).2, rises parent child fresh stands⟩
  have rising {other : NodeId} (below : later.Below id other) :
      ¬ before.Issued other ∧ rank id < rank other := by
    induction below with
    | child member => exact step new member
    | deeper _ member induction =>
      have last := step induction.1 member
      exact ⟨last.1, Nat.lt_trans induction.2 last.2⟩
  exact fun below => Nat.lt_irrefl _ (rising below).2

theorem names (plants : Plants holds roots tops before after) (names : NameTable) :
    Plants holds roots tops before { after with names } where
  steady := (Settles.names after names holds plants.steady).1
  issued := plants.issued
  kept := plants.kept
  top_fresh := plants.top_fresh
  live := plants.live
  closed := plants.closed
  owners := plants.owners
  ranked := plants.ranked

theorem stored (plants : Plants holds roots tops before arena) {node : Node} {id : NodeId}
    {later : Arena} (stored : arena.Stored node id later) (steady : later.Steady [] holds)
    (distinct : node.childArray.toList.Nodup) (among : ∀ child ∈ node.childArray, child ∈ tops) :
    Plants holds roots (id :: tops.filter (· ∉ node.childArray)) before later := by
  have childFresh {child : NodeId} (member : child ∈ node.childArray) :
      before.Fresh arena child :=
    plants.top_fresh (among child member)
  have freshLater {other : NodeId} (fresh : before.Fresh arena other) : before.Fresh later other :=
    ⟨(stored.issued_iff other).mpr (.inr fresh.1), fresh.2⟩
  have different {other : NodeId} (issued : arena.Issued other) : other ≠ id := by
    rintro rfl
    exact stored.new issued
  have freshCases {other : NodeId} (fresh : before.Fresh later other) :
      other = id ∨ other ≠ id ∧ before.Fresh arena other :=
    ((stored.issued_iff other).mp fresh.1).imp_right fun issued =>
      ⟨different issued, issued, fresh.2⟩
  have childrenNew : later.children id = node.childArray := children_of_live stored.live?_same
  have children {other : NodeId} (old : other ≠ id) :
      later.children other = arena.children other := by
    simp only [Arena.children, node?, stored.live?_other other old, Option.map_map]
    rfl
  constructor
  · exact steady
  · exact fun {other} old => (stored.issued_iff other).mpr (.inr (plants.issued old))
  · intro other old unchanged
    have absent : node.childArray.count other = 0 :=
      Array.count_eq_zero_of_not_mem fun member => (childFresh member).2 old
    rw [stored.live?_other other (different (plants.issued old)), absent,
      ← plants.kept old unchanged]
    exact Option.map_id'
  · intro other member
    rcases List.mem_cons.mp member with rfl | earlier
    · exact ⟨issued_of_live stored.live?_same, fun old => stored.new (plants.issued old)⟩
    · exact freshLater (plants.top_fresh (List.mem_of_mem_filter earlier))
  · intro other fresh
    rcases freshCases fresh with rfl | ⟨old, earlier⟩
    · exact contains_iff.mpr ⟨_, _, stored.live?_same⟩
    · rw [contains, stored.live?_other other old, Option.isSome_map]
      exact plants.live earlier
  · intro other child fresh member
    rcases freshCases fresh with rfl | ⟨old, earlier⟩
    · rw [childrenNew] at member
      exact freshLater (childFresh member)
    · rw [children old] at member
      exact freshLater (plants.closed earlier member)
  · intro other fresh
    rcases freshCases fresh with rfl | ⟨old, earlier⟩
    · rw [ownerCount_of_live stored.live?_same, if_pos (List.mem_cons_self ..)]
    · rcases contains_iff.mp (plants.live earlier) with ⟨content, owners, found⟩
      have count := plants.owners earlier
      have foundLater := stored.live?_other other old
      rw [found, Option.map_some] at foundLater
      rw [ownerCount_of_live found] at count
      rw [ownerCount_of_live foundLater, count]
      by_cases member : other ∈ node.childArray
      · have once : node.childArray.count other = 1 := by
          rw [← Array.count_toList]
          rw [distinct.count, if_pos (Array.mem_toList_iff.mpr member)]
        simp [once, member, old, among other member]
      · simp [Array.count_eq_zero_of_not_mem member, member, old]
  · rcases plants.ranked with ⟨rank, rises⟩
    -- the new node ranks below all others
    refine ⟨Function.update (rank · + 1) id 0, fun other child fresh member => ?_⟩
    rcases freshCases fresh with rfl | ⟨old, earlier⟩
    · rw [childrenNew] at member
      rw [Function.update_self, Function.update_of_ne (different (childFresh member).1)]
      exact Nat.succ_pos _
    · rw [children old] at member
      rw [Function.update_of_ne old,
        Function.update_of_ne (different (plants.closed earlier member).1)]
      exact Nat.succ_lt_succ (rises other child earlier member)

theorem alloc (plants : Plants holds roots tops before arena) {node : Node}
    (distinct : node.childArray.toList.Nodup) (among : ∀ child ∈ node.childArray, child ∈ tops) :
    Plants holds roots ((arena.alloc node).1 :: tops.filter (· ∉ node.childArray)) before
      (arena.alloc node).2 := by
  apply plants.stored _ (plants.steady.alloc node) distinct among
  apply stored_alloc plants.steady.wellFormed
  exact fun child member => plants.live (plants.top_fresh (among child member))

theorem modifyNode (plants : Plants holds roots tops before after) {id : NodeId}
    (place : id ∈ roots ∨ before.Fresh after id) {change : Node → Node}
    (unchanged : ∀ node, (change node).childArray = node.childArray) :
    Plants holds roots tops before (after.modifyNode id change) := by
  have reading (other : NodeId) := live?_modifyNode after id other change
  have given {other : NodeId} : (after.modifyNode id change).Issued other ↔ after.Issued other :=
    issued_updateLive_iff id (by simp)
  have sameLive (other : NodeId) := contains_modifyNode after id other change
  have children (other : NodeId) :
      (after.modifyNode id change).children other = after.children other :=
    children_modifyNode after id other unchanged
  have owners (other : NodeId) :
      (after.modifyNode id change).ownerCount other = after.ownerCount other := by
    rw [ownerCount, owners?, reading, ownerCount, owners?]
    split
    · rename_i same
      subst same
      cases after.live? other <;> rfl
    · rfl
  have steady : (after.modifyNode id change).Steady [] holds :=
    plants.steady.modifyNode_childless unchanged
  generalize after.modifyNode id change = later at *
  constructor
  · exact steady
  · exact fun old => given.mpr (plants.issued old)
  · intro other old notRoot
    have different : other ≠ id := by
      rintro rfl
      rcases place with root | fresh
      · exact notRoot root
      · exact fresh.2 old
    rw [reading, if_neg different, plants.kept old notRoot]
  · exact fun member => (plants.top_fresh member).imp_left given.mpr
  · intro other fresh
    rw [sameLive]
    exact plants.live (fresh.imp_left given.mp)
  · intro other child fresh member
    rw [children] at member
    exact (plants.closed (fresh.imp_left given.mp) member).imp_left given.mpr
  · intro other fresh
    rw [owners]
    exact plants.owners (fresh.imp_left given.mp)
  · rcases plants.ranked with ⟨rank, rises⟩
    refine ⟨rank, fun other child fresh member => ?_⟩
    rw [children] at member
    exact rises other child (fresh.imp_left given.mp) member

section Attach

variable (outer : Plants holds roots tops before middle)
  (inner : Plants holds [] [top] middle after)

include inner

theorem live?_inner {id : NodeId} (issued : middle.Issued id) :
    after.live? id = middle.live? id :=
  inner.kept issued List.not_mem_nil

theorem pushChild_eq {parent : NodeId} (live : middle.contains parent = true) :
    after.pushChild parent top = (true, (after.retain top).modifyNode parent (·.push top)) := by
  have fresh := inner.top_fresh (List.mem_singleton_self top)
  have parentLive : after.contains parent = true := by
    rwa [contains, inner.live?_inner (issued_of_contains live)]
  rcases contains_iff.mp (inner.live fresh) with ⟨node, owners, found⟩
  have unowned := inner.owners fresh
  rw [ownerCount_of_live found, if_pos (List.mem_singleton_self top)] at unowned
  have linkable : after.canLink top = true := by simp [canLink, found, unowned]
  simp [pushChild, parentLive, linkable]

theorem live?_attached {parent : NodeId} (live : middle.contains parent = true) (id : NodeId) :
    (after.pushChild parent top).2.live? id =
      if id = parent then (middle.live? parent).map fun content =>
        (content.1.push top, content.2)
      else if id = top then (after.live? top).map fun content => (content.1, content.2 + 1)
      else after.live? id := by
  have issued := issued_of_contains live
  have different : parent ≠ top := by
    rintro rfl
    exact (inner.top_fresh (List.mem_singleton_self parent)).2 issued
  rw [inner.pushChild_eq live, live?_link after different, inner.live?_inner issued]

theorem children_attached {parent : NodeId} (live : middle.contains parent = true) (id : NodeId) :
    (after.pushChild parent top).2.children id =
      if id = parent then (middle.children parent).push top else after.children id := by
  rw [Arena.children, node?, inner.live?_attached live]
  split
  · rcases contains_iff.mp live with ⟨node, owners, found⟩
    simp [found, children_of_live found]
  · split
    · rename_i same
      simp only [same, Option.map_map, Arena.children, node?]
      rfl
    · rfl

theorem ownerCount_attached {parent : NodeId} (live : middle.contains parent = true)
    (id : NodeId) :
    (after.pushChild parent top).2.ownerCount id = if id = top then 1 else after.ownerCount id := by
  have fresh := inner.top_fresh (List.mem_singleton_self top)
  have issued := issued_of_contains live
  rw [ownerCount, owners?, inner.live?_attached live]
  split
  · rename_i same
    subst same
    have different : id ≠ top := by
      rintro rfl
      exact fresh.2 issued
    rw [if_neg different, ownerCount, owners?, inner.live?_inner issued, Option.map_map]
    rfl
  · split
    · have unowned := inner.owners fresh
      rcases contains_iff.mp (inner.live fresh) with ⟨node, owners, found⟩
      rw [ownerCount_of_live found, if_pos (List.mem_singleton_self top)] at unowned
      simp [found, unowned]
    · rfl

include outer

theorem attach {parent : NodeId} (live : middle.contains parent = true)
    (place : parent ∈ roots ∨ before.Fresh middle parent) :
    Plants holds roots tops before (after.pushChild parent top).2 := by
  have reading := inner.live?_attached live
  have children := inner.children_attached live
  have counting := inner.ownerCount_attached live
  have given := issued_pushChild_iff after parent top
  have sameLive := contains_pushChild after parent top
  have steady := inner.steady.pushChild parent top
  have topFresh := inner.top_fresh (List.mem_singleton_self top)
  generalize (after.pushChild parent top).2 = later at *
  have different {id : NodeId} (issued : middle.Issued id) : id ≠ top := by
    rintro rfl
    exact topFresh.2 issued
  have parentIssued := issued_of_contains live
  have freshOuter {id : NodeId} (fresh : before.Fresh middle id) : before.Fresh later id :=
    ⟨(given id).mpr (inner.issued fresh.1), fresh.2⟩
  have freshInner {id : NodeId} (fresh : middle.Fresh after id) : before.Fresh later id :=
    ⟨(given id).mpr fresh.1, fresh.2 ∘ outer.issued⟩
  have freshCases {id : NodeId} (fresh : before.Fresh later id) :
      before.Fresh middle id ∨ middle.Fresh after id := by
    by_cases earlier : middle.Issued id
    · exact .inl ⟨earlier, fresh.2⟩
    · exact .inr ⟨(given id).mp fresh.1, earlier⟩
  -- a child of a new node was its child before, or it is the top that was hung under it
  have childCases {id child : NodeId} (fresh : before.Fresh later id)
      (member : child ∈ later.children id) :
      id = parent ∧ child = top ∨
        (before.Fresh middle id ∧ before.Fresh middle child ∧ child ∈ middle.children id) ∨
        middle.Fresh after id ∧ middle.Fresh after child ∧ child ∈ after.children id := by
    rw [children] at member
    split at member
    · rename_i same
      subst same
      rcases Array.mem_push.mp member with old | rfl
      · have planted : before.Fresh middle id := ⟨parentIssued, fresh.2⟩
        exact .inr (.inl ⟨planted, outer.closed planted old, old⟩)
      · exact .inl ⟨rfl, rfl⟩
    · rcases freshCases fresh with planted | new
      · rw [children_congr (inner.live?_inner planted.1)] at member
        exact .inr (.inl ⟨planted, outer.closed planted member, member⟩)
      · exact .inr (.inr ⟨new, inner.closed new member, member⟩)
  constructor
  · exact steady
  · exact fun {id} old => (given id).mpr (inner.issued (outer.issued old))
  · intro id old unchanged
    have other : id ≠ parent := by
      rintro rfl
      rcases place with root | fresh
      · exact unchanged root
      · exact fresh.2 old
    rw [reading, if_neg other, if_neg (different (outer.issued old)),
      inner.live?_inner (outer.issued old), outer.kept old unchanged]
  · exact fun member => freshOuter (outer.top_fresh member)
  · intro id fresh
    rw [sameLive]
    rcases freshCases fresh with old | new
    · rw [contains, inner.live?_inner old.1]
      exact outer.live old
    · exact inner.live new
  · intro id child fresh member
    rcases childCases fresh member with ⟨-, rfl⟩ | ⟨-, planted, -⟩ | ⟨-, new, -⟩
    · exact freshInner topFresh
    · exact freshOuter planted
    · exact freshInner new
  · intro id fresh
    rw [counting]
    split
    · rename_i same
      have below : id ∉ tops := fun member => topFresh.2 (same ▸ (outer.top_fresh member).1)
      rw [if_neg below]
    · rename_i other
      rcases freshCases fresh with old | new
      · have count := outer.owners old
        rwa [ownerCount, owners?, ← inner.live?_inner old.1] at count
      · have below : id ∉ tops := fun member => new.2 (outer.top_fresh member).1
        rw [inner.owners new, if_neg (other ∘ List.mem_singleton.mp), if_neg below]
  · rcases outer.ranked with ⟨rank, rises⟩
    rcases inner.ranked with ⟨inside, risesInside⟩
    classical
    -- the tree ranks above the node under which it hangs
    refine ⟨fun id => if middle.Issued id then rank id else rank parent + 1 + inside id,
      fun id child fresh member => ?_⟩
    rcases childCases fresh member with
      ⟨rfl, rfl⟩ | ⟨idOld, childOld, old⟩ | ⟨idNew, childNew, new⟩
    · simp only [parentIssued, topFresh.2, ↓reduceIte]
      omega
    · simp only [idOld.1, childOld.1, ↓reduceIte]
      exact rises id child idOld old
    · simp only [idNew.2, childNew.2, ↓reduceIte]
      have inside := risesInside id child idNew new
      omega

end Attach

end Plants

theorem Sprouts.plants {holds : NodeId → Nat} {before after : Arena} {tops : List NodeId}
    (steady : before.Steady [] holds) (sprouts : before.Sprouts tops after) :
    Plants holds [] tops before after := by
  induction sprouts with
  | start => exact .refl steady []
  | alloc node _ distinct among induction => exact induction.alloc distinct among
  | names names _ induction => exact induction.names names

theorem Plants.isUnowned_top {holds : NodeId → Nat} {roots tops : List NodeId}
    {before after : Arena} (plants : Plants holds roots tops before after) {top : NodeId}
    (member : top ∈ tops) : after.isUnowned top = true := by
  have fresh := plants.top_fresh member
  rcases contains_iff.mp (plants.live fresh) with ⟨content, owners, found⟩
  have count := plants.owners fresh
  rw [ownerCount_of_live found, if_pos member] at count
  simp [isUnowned, owners?, found, count]

end RecordGraph.Arena
