import RecordGraph.Proofs.Allocation
import RecordGraph.Proofs.Document.Trees

/-!
# Nodes under construction

While a document is loaded, the children of one node grow. All other nodes stay as they are, and the
new ones have one owner each, the place in the child list that they were appended to.
-/

namespace RecordGraph

inductive Arena.Shows (arena : Arena) (fresh : NodeId → Prop) : List Tree → List NodeId → Prop where
  | nil : arena.Shows fresh [] []
  | cons {name : String} {nodeType : NodeType} {attrs : List (String × Value)}
      {children trees : List Tree} {id : NodeId} {node : Node} {ids : List NodeId}
      (new : fresh id) (found : arena.live? id = some (node, 1)) (sameName : node.name = name)
      (sameType : node.nodeType = nodeType) (denotes : arena.names.Denotes node.entries attrs)
      (below : arena.Shows fresh children node.childArray.toList)
      (rest : arena.Shows fresh trees ids) :
      arena.Shows fresh (.node name nodeType attrs children :: trees) (id :: ids)

structure Node.Gains (node : Node) (ids : List NodeId) (later : Node) : Prop where
  name : later.name = node.name
  nodeType : later.nodeType = node.nodeType
  attrs : later.attrs = node.attrs
  children : later.childArray.toList = node.childArray.toList ++ ids

theorem Node.Gains.refl (node : Node) : node.Gains [] node :=
  ⟨rfl, rfl, rfl, (List.append_nil _).symm⟩

theorem Node.Gains.trans {node middle later : Node} {ids more : List NodeId}
    (first : node.Gains ids middle) (second : middle.Gains more later) :
    node.Gains (ids ++ more) later where
  name := second.name.trans first.name
  nodeType := second.nodeType.trans first.nodeType
  attrs := second.attrs.trans first.attrs
  children := by rw [second.children, first.children, List.append_assoc]

theorem Node.gains_ensureChildren (node : Node) : node.Gains [] node.ensureChildren := by
  rcases node with ⟨name, nodeType, attrs, children, status, shareable⟩
  cases children <;> exact ⟨rfl, rfl, rfl, by simp [childArray, Node.ensureChildren]⟩

theorem Node.gains_push (node : Node) (child : NodeId) : node.Gains [child] (node.push child) := by
  rcases node with ⟨name, nodeType, attrs, children, status, shareable⟩
  cases children <;> exact ⟨rfl, rfl, rfl, by simp [childArray, Node.push]⟩

namespace Arena

/-! ## Forests -/

section

variable {before after : Arena} {fresh other : NodeId → Prop} {trees more : List Tree}
  {ids moreIds : List NodeId}

theorem Shows.frame (shows : before.Shows fresh trees ids)
    (keeps : before.names.Keeps after.names) (weaker : ∀ id, fresh id → other id)
    (same : ∀ id content, fresh id → before.live? id = some content →
      after.live? id = some content) : after.Shows other trees ids := by
  induction shows with
  | nil => exact .nil
  | cons new found sameName sameType denotes below rest belowInduction restInduction =>
    exact .cons (weaker _ new) (same _ _ new found) sameName sameType (denotes.keep keeps)
      belowInduction restInduction

theorem Shows.append (shows : after.Shows fresh trees ids)
    (showsMore : after.Shows fresh more moreIds) :
    after.Shows fresh (trees ++ more) (ids ++ moreIds) := by
  induction shows with
  | nil => exact showsMore
  | cons new found sameName sameType denotes below rest _ restInduction =>
    exact .cons new found sameName sameType denotes below restInduction

end

structure Grows (texts : Finset String) (parent : NodeId) (ids : List NodeId) (trees : List Tree)
    (before after : Arena) : Prop where
  wellFormed : after.WellFormed
  fits : after.names.Fits texts
  keeps : before.names.Keeps after.names
  others : ∀ id content, id ≠ parent → before.live? id = some content →
    after.live? id = some content
  parent : ∀ node owners, before.live? parent = some (node, owners) →
    ∃ later, after.live? parent = some (later, owners) ∧ node.Gains ids later
  shows : after.Shows (fun id => before.contains id = false) trees ids

namespace Grows

variable {texts : Finset String} {parent : NodeId} {ids more : List NodeId}
  {trees others : List Tree} {before middle after : Arena}

theorem contains (grows : Grows texts parent ids trees before after) {id : NodeId}
    (live : before.contains id = true) : after.contains id = true := by
  rcases contains_iff.mp live with ⟨node, owners, found⟩
  by_cases same : id = parent
  · subst same
    rcases grows.parent node owners found with ⟨later, foundLater, -⟩
    exact contains_iff.mpr ⟨later, owners, foundLater⟩
  · exact contains_iff.mpr ⟨node, owners, grows.others id _ same found⟩

theorem new_of_new (grows : Grows texts parent ids trees before after) {id : NodeId}
    (new : after.contains id = false) : before.contains id = false := by
  rw [Bool.eq_false_iff] at new ⊢
  exact fun live => new (grows.contains live)

theorem new_head {id : NodeId} (grows : Grows texts parent (id :: ids) trees before after) :
    before.contains id = false ∧ after.contains id = true := by
  rcases grows.shows with _ | ⟨new, found⟩
  exact ⟨new, contains_iff.mpr ⟨_, _, found⟩⟩

theorem refl (wellFormed : before.WellFormed) (fits : before.names.Fits texts)
    (parent : NodeId) : Grows texts parent [] [] before before where
  wellFormed := wellFormed
  fits := fits
  keeps := .refl _
  others _ _ _ found := found
  parent node _ found := ⟨node, found, .refl node⟩
  shows := .nil

theorem trans (first : Grows texts parent ids trees before middle)
    (second : Grows texts parent more others middle after)
    (live : before.contains parent = true) :
    Grows texts parent (ids ++ more) (trees ++ others) before after where
  wellFormed := second.wellFormed
  fits := second.fits
  keeps := first.keeps.trans second.keeps
  others id content different found :=
    second.others id content different (first.others id content different found)
  parent node owners found := by
    rcases first.parent node owners found with ⟨between, foundBetween, gains⟩
    rcases second.parent between owners foundBetween with ⟨later, foundLater, gainsMore⟩
    exact ⟨later, foundLater, gains.trans gainsMore⟩
  shows := by
    have earlier : after.Shows (fun id => before.contains id = false) trees ids := by
      apply first.shows.frame second.keeps (fun _ new => new)
      intro id content new found
      apply second.others id content _ found
      rintro rfl
      rw [live] at new
      cases new
    have later := second.shows.frame (.refl _) (fun _ new => first.new_of_new new)
      (fun _ _ _ found => found)
    exact earlier.append later

theorem of_ensureChildren
    (grows : Grows texts parent ids trees (before.ensureChildren parent) after) :
    Grows texts parent ids trees before after where
  wellFormed := grows.wellFormed
  fits := grows.fits
  keeps := grows.keeps
  others id content different found := by
    apply grows.others id content different
    rwa [ensureChildren, live?_modifyNode, if_neg different]
  parent node owners found := by
    have ensured : (before.ensureChildren parent).live? parent =
        some (node.ensureChildren, owners) := by
      rw [ensureChildren, live?_modifyNode, if_pos rfl, found, Option.map_some]
    rcases grows.parent _ owners ensured with ⟨later, foundLater, gains⟩
    exact ⟨later, foundLater, node.gains_ensureChildren.trans gains⟩
  shows := grows.shows.frame (.refl _)
    (fun id absent => by rwa [ensureChildren, contains_modifyNode] at absent)
    (fun _ _ _ found => found)

theorem nest {name : String} {nodeType : NodeType} {attrs : List (String × Value)} {id : NodeId}
    (leaf : Grows texts parent [id] [.node name nodeType attrs []] before middle)
    (inside : Grows texts id ids trees (middle.ensureChildren id) after)
    (live : before.contains parent = true) :
    Grows texts parent [id] [.node name nodeType attrs trees] before after := by
  rcases leaf.shows with _ | @⟨_, _, _, _, _, _, node, _, new, found, sameName, sameType, denotes,
    below, -⟩
  have ensured (other : NodeId) : (middle.ensureChildren id).live? other =
      if other = id then some (node.ensureChildren, 1) else middle.live? other := by
    rw [ensureChildren, live?_modifyNode, found, Option.map_some]
  -- the leaf is the parent of what is read inside, and no other node from before changes
  have kept {other : NodeId} {content : Node × Nat} (different : other ≠ id)
      (stays : middle.live? other = some content) : after.live? other = some content := by
    apply inside.others other content different
    rw [ensured, if_neg different, stays]
  have newOf {other : NodeId} (absent : (middle.ensureChildren id).contains other = false) :
      before.contains other = false := by
    rw [ensureChildren, contains_modifyNode] at absent
    exact leaf.new_of_new absent
  have childless : node.childArray.toList = [] := by
    cases children : node.childArray.toList with
    | nil => rfl
    | cons child others =>
      rw [children] at below
      cases below
  rcases inside.parent node.ensureChildren 1 (by rw [ensured, if_pos rfl]) with
    ⟨later, foundLater, gains⟩
  have whole := node.gains_ensureChildren.trans gains
  refine ⟨inside.wellFormed, inside.fits, leaf.keeps.trans inside.keeps,
    fun other content different stays => ?_, fun other owners stays => ?_, ?_⟩
  · apply kept _ (leaf.others other content different stays)
    rintro rfl
    rw [Arena.contains, stays] at new
    cases new
  · rcases leaf.parent other owners stays with ⟨between, foundBetween, gainsLeaf⟩
    refine ⟨between, kept ?_ foundBetween, gainsLeaf⟩
    rintro rfl
    rw [live] at new
    cases new
  · refine .cons new foundLater (whole.name.trans sameName) (whole.nodeType.trans sameType) ?_ ?_
      .nil
    · rw [Node.entries, whole.attrs]
      exact denotes.keep inside.keeps
    · rw [whole.children, childless]
      exact inside.shows.frame (.refl _) (fun _ absent => newOf absent) fun _ _ _ stays => stays

end Grows

/-! ## A new child -/

section

variable {arena : Arena}

theorem grows_pushChild {texts : Finset String} {parent : NodeId} {node : Node}
    {attrs : List (String × Value)} (wellFormed : arena.WellFormed)
    (fits : arena.names.Fits texts) (live : arena.contains parent = true)
    (childless : node.childArray = #[]) (denotes : arena.names.Denotes node.entries attrs) :
    Grows texts parent [(arena.alloc node).1] [.node node.name node.nodeType attrs []] arena
      ((arena.alloc node).2.pushChild parent (arena.alloc node).1).2 := by
  have placed := placed_alloc wellFormed childless
  generalize (arena.alloc node).1 = id at placed
  generalize (arena.alloc node).2 = middle at placed
  have reads := placed.live?_pushChild live
  have notParent : id ≠ parent := (placed.ne_parent live).symm
  have names : (middle.pushChild parent id).2.names = arena.names := by
    rw [placed.pushChild_eq live]
    exact placed.names
  have sound : (middle.pushChild parent id).2.WellFormed := by
    rw [placed.pushChild_eq live]
    exact wellFormed_updateLive (wellFormed_updateLive placed.wellFormed id (by simp)) parent
      (by simp)
  generalize (middle.pushChild parent id).2 = later at reads names sound ⊢
  refine ⟨sound, names ▸ fits, names ▸ .refl _, fun other content elsewhere found => ?_,
    fun other owners found => ?_, ?_⟩
  · have old : other ≠ id := by
      rintro rfl
      rw [placed.live?_before] at found
      cases found
    rw [reads, if_neg elsewhere, if_neg old, found]
  · exact ⟨other.push id, by rw [reads, if_pos rfl, found]; rfl, other.gains_push id⟩
  · refine .cons ?_ (by rw [reads, if_neg notParent, if_pos rfl]) rfl rfl (names ▸ denotes) ?_ .nil
    · rw [contains, placed.live?_before, Option.isSome_none]
    · rw [childless]
      exact .nil

end
end Arena
end RecordGraph
