import RecordGraph.Proofs.Arena.Ledger
import RecordGraph.Proofs.Document.Loading
import RecordGraph.Proofs.Document.Writing

/-!
# Written structures read back

What is written of the nodes below a node is a document of their unfolding, and loading it below a
fresh node gives nodes that unfold to the same trees. Only the carriage returns of texts are lost.
-/

namespace RecordGraph

/-! ## Unfolding of new nodes -/

theorem NameTable.Denotes.attrs_eq {names : NameTable} {entries : List (AttrId × Value)}
    {attrs : List (String × Value)} (denotes : names.Denotes entries attrs) :
    entries.map (fun (id, value) => ((names.lookup id).getD "", value)) = attrs := by
  rw [← List.forall₂_eq_eq_eq, List.forall₂_map_left_iff]
  apply List.Forall₂.imp _ denotes
  rintro ⟨id, value⟩ ⟨key, content⟩ ⟨found, same⟩
  simp only at found same ⊢
  rw [found, Option.getD_some, same]

namespace Arena

variable {arena : Arena} {fresh : NodeId → Prop} {trees others : List Tree} {ids : List NodeId}

theorem Shows.unique (shows : arena.Shows fresh trees ids)
    (showsOthers : arena.Shows fresh others ids) : trees = others := by
  induction shows generalizing others with
  | nil =>
    cases showsOthers
    rfl
  | cons new found sameName sameType denotes below rest belowInduction restInduction =>
    rcases showsOthers with _ | ⟨_, foundOther, otherName, otherType, otherDenotes, otherBelow,
      otherRest⟩
    rw [found] at foundOther
    cases foundOther
    rw [← sameName, ← sameType, ← denotes.attrs_eq, belowInduction otherBelow,
      restInduction otherRest, ← otherName, ← otherType, ← otherDenotes.attrs_eq]

def Apart (arena : Arena) (fresh : NodeId → Prop) (trees : List Tree) (path : List NodeId) : Prop :=
  ∀ id ∈ path, ¬ fresh id ∨ ∃ tree, arena.Shows fresh [tree] [id] ∧ sizeOf trees < sizeOf tree

theorem Shows.unfold (shows : arena.Shows fresh trees ids) {path : List NodeId}
    (apart : arena.Apart fresh trees path) : ids.filterMap (arena.unfold path) = trees := by
  induction shows generalizing path with
  | nil => rfl
  | @cons name nodeType attrs children trees id node ids new found sameName sameType denotes below
      rest belowInduction restInduction =>
    have alone := Shows.cons new found sameName sameType denotes below .nil
    have outside : id ∉ path := by
      intro member
      rcases apart id member with old | ⟨tree, again, larger⟩
      · exact old new
      · have same := again.unique alone
        simp only [List.cons.injEq, and_true] at same
        subst same
        simp only [List.cons.sizeOf_spec, Tree.node.sizeOf_spec] at larger
        omega
    have childrenApart : arena.Apart fresh children (id :: path) := by
      intro other member
      rcases List.mem_cons.mp member with same | member
      · refine .inr ⟨_, same ▸ alone, ?_⟩
        simp only [Tree.node.sizeOf_spec]
        omega
      · rcases apart other member with old | ⟨tree, again, larger⟩
        · exact .inl old
        · refine .inr ⟨tree, again, ?_⟩
          simp only [List.cons.sizeOf_spec, Tree.node.sizeOf_spec] at larger
          omega
    have restApart : arena.Apart fresh trees path := by
      intro other member
      rcases apart other member with old | ⟨tree, again, larger⟩
      · exact .inl old
      · refine .inr ⟨tree, again, ?_⟩
        simp only [List.cons.sizeOf_spec] at larger
        omega
    have present : arena.node? id = some node := by
      rw [node?, found, Option.map_some]
    have attrsEq : node.namedAttrs arena.names = attrs := denotes.attrs_eq
    rw [List.filterMap_cons, unfold_live present, if_neg outside, belowInduction childrenApart,
      restInduction restApart, sameName, sameType, attrsEq]

theorem Shows.of_mem (shows : arena.Shows fresh trees ids) {id : NodeId} (member : id ∈ ids) :
    ∃ tree, arena.Shows fresh [tree] [id] := by
  induction shows with
  | nil => cases member
  | cons new found sameName sameType denotes below rest _ restInduction =>
    rcases List.mem_cons.mp member with rfl | member
    · exact ⟨_, .cons new found sameName sameType denotes below .nil⟩
    · exact restInduction member

theorem Shows.of_below {root : NodeId}
    (shows : arena.Shows fresh trees (arena.children root).toList) {id : NodeId}
    (below : arena.Below root id) : ∃ tree, arena.Shows fresh [tree] [id] := by
  induction below with
  | child member => exact shows.of_mem (Array.mem_toList_iff.mpr member)
  | deeper _ member induction =>
    rcases induction with ⟨tree, _ | ⟨_, found, _, _, _, inside, _⟩⟩
    rw [children_of_live found] at member
    exact inside.of_mem (Array.mem_toList_iff.mpr member)

theorem Shows.owners? {tree : Tree} {id : NodeId} (shows : arena.Shows fresh [tree] [id]) :
    arena.owners? id = some 1 := by
  rcases shows with _ | ⟨_, found⟩
  rw [Arena.owners?, found, Option.map_some]

end Arena

/-! ## Loading below a fresh node -/

namespace Document

variable {texts : Finset String} {trees : List Tree}

/-- A document of trees is loaded below any node, behind the children that the node has. -/
theorem load_forestText {source : String} (forest : ForestText texts trees source.toList)
    {arena : Arena} {root : NodeId} (wellFormed : arena.WellFormed)
    (fits : arena.names.Fits texts) (live : arena.contains root = true) :
    ∃ ids later, load source arena .standard root ⟨true⟩ = ([], later) ∧
      Arena.Grows texts root ids (trees.map Tree.withoutReturns) arena later := by
  have opened : (arena.ensureChildren root).contains root = true := by
    rwa [Arena.ensureChildren, Arena.contains_modifyNode]
  rcases @reads_forest _ _ _ forest ⟨arena.ensureChildren root, root, [], none, #[]⟩
    (Arena.wellFormed_updateLive wellFormed root (by simp)) fits opened with
    ⟨later, latest, ids, reads, grows⟩
  refine ⟨ids, later, ?_, grows.of_ensureChildren⟩
  rcases reads 1 [] with ⟨used, line, within, run⟩
  have enough : source.toList.length + 1 = source.toList.length - used + 1 + used := by omega
  rw [List.append_nil] at run
  rw [load, if_pos live]
  simp only [Cursor.ofText, enough, run]
  rfl

/-- The arena with one plain node that documents are loaded below. -/
def blankArena (name : String) : Arena :=
  (Arena.empty.allocKind name .base).2

def blankRoot (name : String) : NodeId :=
  (Arena.empty.allocKind name .base).1

/-- A document of trees that is loaded below a fresh node comes back as the trees, without carriage
returns and without shared nodes. -/
theorem load_forestText_blank {source : String} (forest : ForestText texts trees source.toList)
    (fits : NameTable.attributes.Fits texts) (name : String) :
    ∃ loaded, load source (blankArena name) .standard (blankRoot name) ⟨true⟩ = ([], loaded) ∧
      loaded.names.Sound ∧
      loaded.unfoldChildren (blankRoot name) = trees.map Tree.withoutReturns ∧
      ∀ id, loaded.Below (blankRoot name) id → loaded.owners? id = some 1 := by
  have wellFormed : (blankArena name).WellFormed :=
    Arena.wellFormed_alloc Arena.steady_empty.wellFormed _
  have found : (blankArena name).live? (blankRoot name) = some (.ofKind name .base, 0) := rfl
  have live : (blankArena name).contains (blankRoot name) = true := rfl
  rcases load_forestText forest wellFormed fits live with ⟨ids, loaded, run, grows⟩
  rcases grows.parent _ _ found with ⟨root, foundRoot, gains⟩
  have children : (loaded.children (blankRoot name)).toList = ids := by
    rw [Arena.children_of_live foundRoot, gains.children]
    rfl
  have shows := grows.shows
  rw [← children] at shows
  refine ⟨loaded, run, grows.fits.sound, shows.unfold ?_, fun id below => ?_⟩
  · intro id member
    refine .inl fun new => ?_
    rw [List.mem_singleton.mp member] at new
    cases new
  · rcases shows.of_below below with ⟨tree, shown⟩
    exact shown.owners?

/-- What is written of the children of a node comes back as trees. No warning is given, the trees
are the unfolding of the children without carriage returns, and no node is shared. -/
theorem load_childrenText {arena : Arena} (sound : arena.AttrsSound) {node : NodeId}
    (writable : ∀ id content, arena.Below node id → arena.node? id = some content →
      content.Writable arena.names) (layout : Layout) (name : String) :
    ∃ loaded, load (childrenText arena .standard layout node) (blankArena name) .standard
        (blankRoot name) ⟨true⟩ = ([], loaded) ∧
      loaded.unfoldChildren (blankRoot name) =
        (arena.unfoldChildren node).map Tree.withoutReturns ∧
      ∀ id, loaded.Below (blankRoot name) id → loaded.owners? id = some 1 := by
  have forest : ForestText arena.names.texts (arena.unfoldChildren node)
      (childrenText arena .standard layout node).toList :=
    forestText_childrenText sound writable
  rcases load_forestText_blank forest sound.names.fits_attributes name with
    ⟨loaded, run, -, unfolds, owned⟩
  exact ⟨loaded, run, unfolds, owned⟩

def tangle : Arena :=
  let arena := (Arena.empty.allocKind "r" .list).2
  let arena := (arena.allocKind "a" .int).2
  let arena := (arena.allocKind "" .base).2
  let arena := arena.setAttr ⟨1, 0⟩ "" (.int (-5))
  let arena := arena.setAttr ⟨1, 0⟩ "note" (.text "one,\r\ntwo")
  let arena := (arena.pushChild ⟨0, 0⟩ ⟨1, 0⟩).2
  let arena := (arena.pushChild ⟨0, 0⟩ ⟨1, 0⟩).2
  let arena := (arena.pushChild ⟨0, 0⟩ ⟨2, 0⟩).2
  (arena.pushChild ⟨2, 0⟩ ⟨0, 0⟩).2

theorem attrsSound_tangle : tangle.AttrsSound := by
  have plain (name : String) (kind : Kind) : (Node.ofKind name kind).AttrsSound :=
    Node.attrsSound_of_missing rfl
  have first := Arena.attrsSound_empty.alloc Arena.steady_empty.wellFormed (plain "r" .list)
  have wellFormedFirst := Arena.wellFormed_alloc Arena.steady_empty.wellFormed (.ofKind "r" .list)
  have second := first.alloc wellFormedFirst (plain "a" .int)
  have wellFormedSecond := Arena.wellFormed_alloc wellFormedFirst (.ofKind "a" .int)
  have third := second.alloc wellFormedSecond (plain "" .base)
  have stored := (third.setAttr ⟨1, 0⟩ "" (.int (-5))).setAttr ⟨1, 0⟩ "note" (.text "one,\r\ntwo")
  exact (((stored.pushChild _ _).pushChild _ _).pushChild _ _).pushChild _ _

theorem writable_tangle {id : NodeId} {content : Node} (found : tangle.node? id = some content) :
    content.Writable tangle.names := by
  have all : ∀ slot ∈ tangle.slots, ∀ content ∈ slot.live? slot.generation,
      content.1.Writable tangle.names := by decide +kernel
  rcases Option.map_eq_some_iff.mp found with ⟨⟨node, owners⟩, live, rfl⟩
  have slot := Arena.live?_eq_some_iff.mp live
  exact all _ (Array.mem_of_getElem? slot) (node, owners) (by simp [Slot.live?])

/-- The shared node comes back twice, and the list inside itself without its children. -/
theorem load_childrenText_tangle :
    tangle.AttrsSound ∧
      (∀ id content, tangle.Below ⟨0, 0⟩ id → tangle.node? id = some content →
        content.Writable tangle.names) ∧
      ∃ loaded, load (childrenText tangle .standard ⟨10, 1⟩ ⟨0, 0⟩) (blankArena "doc") .standard
          (blankRoot "doc") ⟨true⟩ = ([], loaded) ∧
        loaded.unfoldChildren (blankRoot "doc") =
          (tangle.unfoldChildren ⟨0, 0⟩).map Tree.withoutReturns ∧
        ∀ id, loaded.Below (blankRoot "doc") id → loaded.owners? id = some 1 :=
  have writable (id : NodeId) (content : Node) (_ : tangle.Below ⟨0, 0⟩ id)
      (found : tangle.node? id = some content) : content.Writable tangle.names :=
    writable_tangle found
  ⟨attrsSound_tangle, writable, load_childrenText attrsSound_tangle writable ⟨10, 1⟩ "doc"⟩

end Document
end RecordGraph
