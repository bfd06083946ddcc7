import RecordGraph.Proofs.Arena.Replacement
import RecordGraph.Proofs.Arena.Uprooting

/-!
# Combs

Where room is made along a row of indices, each child list on the way ends at the index that is
followed, and beside the way stand only nodes without children and attributes. Such a way is a comb,
and the nodes beside it are its teeth. The indices that lead anywhere in a comb are told by the row,
and no two of them lead to the same node.
-/

namespace RecordGraph.Arena

def attrs? (arena : Arena) (id : NodeId) : Option (Option AttrList) :=
  (arena.node? id).map (·.attrs)

structure Bare (arena : Arena) (id : NodeId) : Prop where
  children : arena.children id = #[]
  attrs : arena.attrs? id = some none

structure Alike (arena later : Arena) (id : NodeId) : Prop where
  children : later.children id = arena.children id
  attrs : later.attrs? id = arena.attrs? id

theorem Alike.of_live? {arena later : Arena} {id : NodeId}
    (same : later.live? id = arena.live? id) : Alike arena later id where
  children := by rw [Arena.children, Arena.children, node?, node?, same]
  attrs := by rw [attrs?, attrs?, node?, node?, same]

theorem Alike.trans {arena middle later : Arena} {id : NodeId} (left : Alike arena middle id)
    (right : Alike middle later id) : Alike arena later id :=
  ⟨right.children.trans left.children, right.attrs.trans left.attrs⟩

theorem attrs?_modifyNode (arena : Arena) (id asked : NodeId) {change : Node → Node}
    (kept : ∀ node, (change node).attrs = node.attrs) :
    (arena.modifyNode id change).attrs? asked = arena.attrs? asked := by
  rw [attrs?, attrs?, node?, node?, live?_modifyNode]
  split
  · rename_i same
    subst same
    cases arena.live? asked with
    | none => rfl
    | some content => simp [kept]
  · rfl

theorem attrs?_retain (arena : Arena) (id asked : NodeId) :
    (arena.retain id).attrs? asked = arena.attrs? asked := by
  rw [attrs?, attrs?, node?, node?, live?_retain]
  split
  · rename_i same
    subst same
    cases arena.live? asked <;> rfl
  · rfl

theorem Alike.modifyNode (arena : Arena) (id asked : NodeId) {change : Node → Node}
    (children : ∀ node, (change node).childArray = node.childArray)
    (attrs : ∀ node, (change node).attrs = node.attrs) :
    Alike arena (arena.modifyNode id change) asked :=
  ⟨children_modifyNode arena id asked children, attrs?_modifyNode arena id asked attrs⟩

theorem Alike.retain (arena : Arena) (id asked : NodeId) : Alike arena (arena.retain id) asked :=
  ⟨children_retain arena id asked, attrs?_retain arena id asked⟩

theorem Alike.bare {arena later : Arena} {id : NodeId} (alike : Alike arena later id)
    (bare : arena.Bare id) : later.Bare id :=
  ⟨alike.children.trans bare.children, alike.attrs.trans bare.attrs⟩

/-- The indices lead from a node to a tip. The list of each node before the tip ends at its index,
with bare nodes in front. The nodes of these lists are given in the order of the way. -/
inductive Comb (arena : Arena) : NodeId → List Nat → NodeId → List NodeId → Prop
  | tip (node : NodeId) : Comb arena node [] node []
  | row {node child tip : NodeId} {teeth deeper : List NodeId} {indices : List Nat}
      (blank : arena.attrs? node = some none)
      (listed : arena.children node = (teeth ++ [child]).toArray)
      (bare : ∀ id ∈ teeth, arena.Bare id)
      (onward : Comb arena child indices tip deeper) :
      Comb arena node (teeth.length :: indices) tip (teeth ++ child :: deeper)

theorem eq_of_descend_childless {arena : Arena} {node id : NodeId}
    (childless : arena.children node = #[]) {way : List Nat}
    (reached : arena.descend node way = some id) : way = [] ∧ id = node := by
  cases way with
  | nil =>
    cases reached
    exact ⟨rfl, rfl⟩
  | cons index way => simp [descend, child?, childless] at reached

namespace Comb

variable {arena later : Arena} {origin middle tip child old : NodeId}
  {indices front back : List Nat} {nodes more : List NodeId}

theorem length_nodes (comb : arena.Comb origin indices tip nodes) :
    nodes.length = (indices.map (· + 1)).sum := by
  induction comb with
  | tip node => rfl
  | row blank listed bare onward induction =>
    simp only [List.length_append, List.length_cons, induction, List.map_cons, List.sum_cons]
    omega

theorem append (upper : arena.Comb origin front middle nodes)
    (lower : arena.Comb middle back tip more) :
    arena.Comb origin (front ++ back) tip (nodes ++ more) := by
  induction upper with
  | tip node => exact lower
  | @row node child _ teeth deeper indices blank listed bare onward induction =>
    rw [List.cons_append, List.append_assoc, List.cons_append]
    exact .row blank listed bare (induction lower)

theorem split (comb : arena.Comb origin (front ++ back) tip nodes) :
    ∃ middle upper lower, arena.Comb origin front middle upper ∧
      arena.Comb middle back tip lower ∧ nodes = upper ++ lower := by
  induction front generalizing origin nodes with
  | nil => exact ⟨origin, [], nodes, .tip origin, comb, rfl⟩
  | cons index front induction =>
    cases comb with
    | @row _ child _ teeth deeper _ blank listed bare onward =>
      rcases induction onward with ⟨middle, upper, lower, above, below, rfl⟩
      exact ⟨middle, teeth ++ child :: upper, lower, .row blank listed bare above, below, by simp⟩

theorem tip_mem (comb : arena.Comb origin indices tip nodes) : tip ∈ origin :: nodes := by
  induction comb with
  | tip node => exact List.mem_cons_self
  | row blank listed bare onward induction =>
    exact List.mem_cons_of_mem _ (List.mem_append_right _ induction)

theorem congr (comb : arena.Comb origin indices tip nodes) (nodup : (origin :: nodes).Nodup)
    (kept : ∀ id ∈ origin :: nodes, id ≠ tip → Alike arena later id) :
    later.Comb origin indices tip nodes := by
  induction comb with
  | tip node => exact .tip node
  | @row node child tip teeth deeper indices blank listed bare onward induction =>
    rcases List.nodup_cons.mp nodup with ⟨absent, nodup⟩
    rcases List.nodup_append.mp nodup with ⟨-, nodupBehind, apart⟩
    have behind : tip ∈ child :: deeper := onward.tip_mem
    have nodeKept := kept node List.mem_cons_self fun same =>
      absent (same ▸ List.mem_append_right teeth behind)
    refine .row (nodeKept.attrs.trans blank) (nodeKept.children.trans listed) (fun id member => ?_)
      (induction nodupBehind fun id member => kept id ?_)
    · exact (kept id (List.mem_cons_of_mem _ (List.mem_append_left _ member))
        (apart id member tip behind)).bare (bare id member)
    · exact List.mem_cons_of_mem _ (List.mem_append_right _ member)

/-! ## Where indices lead -/

theorem descend (comb : arena.Comb origin indices tip nodes) :
    arena.descend origin indices = some tip := by
  induction comb with
  | tip node => rfl
  | row blank listed bare onward induction =>
    rw [Arena.descend, child?, listed]
    simpa using induction

theorem blank_of_mem (comb : arena.Comb origin indices tip nodes) {id : NodeId}
    (member : id ∈ origin :: nodes) (notTip : id ≠ tip) : arena.attrs? id = some none := by
  induction comb with
  | tip node => exact absurd (List.mem_singleton.mp member) notTip
  | row blank listed bare onward induction =>
    rcases List.mem_cons.mp member with rfl | member
    · exact blank
    · rcases List.mem_append.mp member with beside | behind
      · exact (bare id beside).attrs
      · exact induction behind notTip

theorem child_cases {node asked : NodeId} {teeth : List NodeId} {index : Nat}
    (listed : arena.children node = (teeth ++ [child]).toArray)
    (stands : arena.child? node index = some asked) :
    (index < teeth.length ∧ teeth[index]? = some asked) ∨
      (index = teeth.length ∧ asked = child) := by
  rw [child?, listed, List.getElem?_toArray] at stands
  by_cases beside : index < teeth.length
  · rw [List.getElem?_append_left beside] at stands
    exact .inl ⟨beside, stands⟩
  · rw [List.getElem?_append_right (Nat.le_of_not_lt beside)] at stands
    rcases List.getElem?_eq_some_iff.mp stands with ⟨inside, same⟩
    simp only [List.length_singleton] at inside
    have last : index = teeth.length := by omega
    subst last
    simp only [Nat.sub_self, List.getElem_cons_zero] at same
    exact .inr ⟨rfl, same.symm⟩

/-- At each level there are just the children up to the index that is followed there. -/
theorem isSome_descend_iff {number index : Nat} {behind : List Nat}
    (comb : arena.Comb origin (front ++ number :: behind) tip nodes) :
    (arena.descend origin (front ++ [index])).isSome = true ↔ index ≤ number := by
  rcases comb.split with ⟨middle, upper, lower, above, below, -⟩
  cases below with
  | @row _ child _ teeth _ _ blank listed bare onward =>
    rw [descend_append, above.descend, Option.bind_some]
    rw [descend_singleton, child?, listed, List.getElem?_toArray, isSome_getElem?,
      List.length_append, List.length_singleton]
    exact Nat.lt_succ_iff

theorem bare_of_descend {number index : Nat} {behind : List Nat} {id : NodeId}
    (comb : arena.Comb origin (front ++ number :: behind) tip nodes) (beside : index < number)
    (reached : arena.descend origin (front ++ [index]) = some id) : arena.Bare id := by
  rcases comb.split with ⟨middle, upper, lower, above, below, -⟩
  cases below with
  | @row _ child _ teeth _ _ blank listed bare onward =>
    rw [descend_append, above.descend, Option.bind_some] at reached
    rw [descend_singleton] at reached
    rcases child_cases listed reached with ⟨-, found⟩ | ⟨last, -⟩
    · exact bare id (List.mem_of_getElem? found)
    · exact absurd last (Nat.ne_of_lt beside)

theorem mem_of_descend (comb : arena.Comb origin indices tip nodes)
    (childless : arena.children tip = #[]) {way : List Nat} {id : NodeId}
    (reached : arena.descend origin way = some id) : way = [] ∧ id = origin ∨ id ∈ nodes := by
  induction comb generalizing way with
  | tip node => exact .inl (eq_of_descend_childless childless reached)
  | @row node child tip teeth deeper indices blank listed bare onward induction =>
    cases way with
    | nil =>
      cases reached
      exact .inl ⟨rfl, rfl⟩
    | cons index way =>
      right
      rcases Option.bind_eq_some_iff.mp reached with ⟨next, stands, reached⟩
      rcases child_cases listed stands with ⟨-, found⟩ | ⟨-, rfl⟩
      · have tooth := List.mem_of_getElem? found
        rw [(eq_of_descend_childless (bare next tooth).children reached).2]
        exact List.mem_append_left _ tooth
      · rcases induction childless reached with ⟨-, rfl⟩ | member
        · exact List.mem_append_right _ List.mem_cons_self
        · exact List.mem_append_right _ (List.mem_cons_of_mem _ member)

theorem descend_injective (comb : arena.Comb origin indices tip nodes)
    (nodup : (origin :: nodes).Nodup) (childless : arena.children tip = #[])
    {one other : List Nat} {id : NodeId} (reached : arena.descend origin one = some id)
    (reachedToo : arena.descend origin other = some id) : one = other := by
  induction comb generalizing one other with
  | tip node =>
    rw [(eq_of_descend_childless childless reached).1,
      (eq_of_descend_childless childless reachedToo).1]
  | @row node child tip teeth deeper indices blank listed bare onward induction =>
    have whole := onward.row blank listed bare
    rcases List.nodup_cons.mp nodup with ⟨absent, nodup⟩
    rcases List.nodup_append.mp nodup with ⟨nodupTeeth, nodupBehind, apart⟩
    -- a row of indices that leads back to the node itself would find it among its own descendants
    have returns {index : Nat} {way : List Nat}
        (reached : arena.descend node (index :: way) = some id) : id ≠ node := by
      rintro rfl
      rcases whole.mem_of_descend childless reached with ⟨none, -⟩ | member
      · cases none
      · exact absent member
    have behind {way : List Nat} (reached : arena.descend child way = some id) :
        id ∈ child :: deeper := by
      rcases onward.mem_of_descend childless reached with ⟨-, rfl⟩ | member
      · exact List.mem_cons_self
      · exact List.mem_cons_of_mem _ member
    cases one with
    | nil =>
      cases reached
      cases other with
      | nil => rfl
      | cons index way => exact absurd rfl (returns reachedToo)
    | cons first one =>
      cases other with
      | nil =>
        cases reachedToo
        exact absurd rfl (returns reached)
      | cons second other =>
        rcases Option.bind_eq_some_iff.mp reached with ⟨next, stands, onOne⟩
        rcases Option.bind_eq_some_iff.mp reachedToo with ⟨nextToo, standsToo, onOther⟩
        rcases child_cases listed stands with ⟨inside, found⟩ | ⟨rfl, rfl⟩ <;>
          rcases child_cases listed standsToo with ⟨-, foundToo⟩ | ⟨rfl, rfl⟩
        · rcases eq_of_descend_childless (bare _ (List.mem_of_getElem? found)).children onOne with
            ⟨rfl, rfl⟩
          rcases eq_of_descend_childless (bare _ (List.mem_of_getElem? foundToo)).children onOther
            with ⟨rfl, rfl⟩
          rw [(List.getElem?_inj inside nodupTeeth).mp (found.trans foundToo.symm)]
        · have tooth := List.mem_of_getElem? found
          rcases eq_of_descend_childless (bare _ tooth).children onOne with ⟨rfl, rfl⟩
          exact absurd rfl (apart _ tooth _ (behind onOther))
        · have tooth := List.mem_of_getElem? foundToo
          rcases eq_of_descend_childless (bare _ tooth).children onOther with ⟨rfl, rfl⟩
          exact absurd rfl (apart _ tooth _ (behind onOne))
        · rw [induction nodupBehind childless onOne onOther]

end Comb

/-! ## A leaf that gives way -/

section

variable {arena : Arena} {id parent child old : NodeId} {index : Nat} {content : Node}

theorem live_exchanged (arena : Arena) (parent : NodeId) (index : Nat) (child : NodeId) :
    (arena.exchanged parent index child).live = arena.live :=
  rfl

theorem live_alloc_leaf (childless : content.childArray = #[]) :
    (arena.alloc content).2.live = arena.live + 1 := by
  rw [alloc, adopt_childless childless]
  rcases arena with ⟨slots, _ | ⟨index, free⟩, live, names⟩ <;> rfl

theorem live_destroy_leaf {owners : Nat} (found : arena.live? id = some (content, owners))
    (childless : content.childArray = #[]) : (arena.destroy id).live = arena.live - 1 := by
  rw [destroy_leaf found childless, condemn_of_live found]
  rfl

theorem attrs?_exchanged (arena : Arena) (parent : NodeId) (index : Nat) (child id : NodeId) :
    (arena.exchanged parent index child).attrs? id = arena.attrs? id := by
  unfold exchanged
  rw [attrs?_modifyNode]
  · exact attrs?_retain arena child id
  · exact fun _ => rfl

structure Yields (arena : Arena) (parent : NodeId) (index : Nat) (old child : NodeId)
    (later : Arena) : Prop where
  listed : later.children parent = (arena.children parent).setIfInBounds index child
  attrs : later.attrs? parent = arena.attrs? parent
  gone : later.live? old = none
  linked : child ≠ parent →
    later.live? child = (arena.live? child).map fun content => (content.1, content.2 + 1)
  others : ∀ id, id ≠ parent → id ≠ old → id ≠ child → later.live? id = arena.live? id
  live : later.live = arena.live - 1

theorem yields_setChild (stood : arena.child? parent index = some old)
    (spent : arena.live? old = some (content, 1)) (childless : content.childArray = #[])
    (linkable : arena.canLink child = true) (different : old ≠ child) :
    arena.Yields parent index old child (arena.setChild parent index child).2 := by
  have notParent : old ≠ parent := ne_of_childless stood spent childless
  have linkedOld : (arena.exchanged parent index child).live? old = some (content, 1) := by
    rw [live?_exchanged notParent, if_neg different, spent]
  have owned : (arena.exchanged parent index child).owners? old = some 1 := by
    rw [owners?, linkedOld]
    rfl
  have same : (arena.setChild parent index child).2 =
      (arena.exchanged parent index child).destroy old := by
    rw [setChild_of_child stood, if_pos ⟨different, linkable⟩]
    simp only [release, owned, Nat.le_refl, ↓reduceIte]
  have reads (id : NodeId) (other : id ≠ old) :
      ((arena.exchanged parent index child).destroy old).live? id =
        (arena.exchanged parent index child).live? id := by
    rw [live?_destroy_leaf linkedOld childless, if_neg other]
  have alike := Alike.of_live? (reads parent (Ne.symm notParent))
  rw [same]
  exact {
    listed := by rw [alike.children, children_exchanged, if_pos rfl]
    attrs := alike.attrs.trans (attrs?_exchanged arena parent index child parent)
    gone := by rw [live?_destroy_leaf linkedOld childless, if_pos rfl]
    linked := fun apart => by
      rw [reads child (Ne.symm different), live?_exchanged apart, if_pos rfl]
    others := fun id apart notOld notChild => by
      rw [reads id notOld, live?_exchanged apart, if_neg notChild]
    live := by rw [live_destroy_leaf linkedOld childless, live_exchanged] }

end

/-! ## Another tip -/

/-- Where another node is put at the end of the last list, the way leads to that node. -/
theorem Comb.put {arena later : Arena} {origin parent child old : NodeId} {front : List Nat}
    {index : Nat} {nodes : List NodeId} (comb : arena.Comb origin (front ++ [index]) old nodes)
    (nodup : (origin :: nodes).Nodup) (way : arena.descend origin front = some parent)
    (absent : child ∉ origin :: nodes) (yields : arena.Yields parent index old child later) :
    ∃ kept, nodes = kept ++ [old] ∧
      later.Comb origin (front ++ [index]) child (kept ++ [child]) := by
  have others (id : NodeId) (notParent : id ≠ parent) (notOld : id ≠ old) (notChild : id ≠ child) :=
    Alike.of_live? (yields.others id notParent notOld notChild)
  rcases comb.split with ⟨middle, upper, lower, above, below, rfl⟩
  cases above.descend.symm.trans way
  cases below with
  | @row _ last _ teeth _ _ blank row bare onward =>
    cases onward
    rw [← List.cons_append] at nodup absent
    rcases List.nodup_append.mp nodup with ⟨nodupAbove, nodupBelow, apart⟩
    have notOld {id : NodeId} (member : id ∈ origin :: upper) : id ≠ old :=
      apart id member old (by simp)
    have notChild {id : NodeId} (member : id ∈ (origin :: upper) ++ (teeth ++ [old])) :
        id ≠ child := fun same => absent (same ▸ member)
    refine ⟨upper ++ teeth, by simp, ?_⟩
    rw [List.append_assoc]
    refine (above.congr nodupAbove fun id member other => ?_).append
      (.row (yields.attrs.trans blank) ?_ (fun id member => ?_) (.tip child))
    · exact others id other (notOld member) (notChild (List.mem_append_left _ member))
    · rw [yields.listed, row]
      simp
    · have behind : id ∈ teeth ++ [old] := List.mem_append_left _ member
      have notParent : id ≠ parent := fun same => apart parent above.tip_mem id behind same.symm
      have notOld : id ≠ old := by
        rintro rfl
        exact (List.nodup_append.mp nodupBelow).2.2 id member id (by simp) rfl
      exact (others id notParent notOld (notChild (List.mem_append_right _ behind))).bare
        (bare id member)

end RecordGraph.Arena
