import RecordGraph.Proofs.Arena.Planting
import RecordGraph.Proofs.Document.Rooted

/-!
# Loading plants trees

Whatever a document says, what is loaded below a node are trees of new nodes: each record becomes
the top of a tree that is hung under the node of an open block, which is the outermost one or was
planted by the same load.
-/

namespace RecordGraph

open RecordGraph.Arena (Plants)

namespace Arena

/-! ## What was planted -/

section Planted

variable {holds : NodeId → Nat} {roots tops : List NodeId} {before after : Arena}

namespace Plants

variable (plants : Plants holds roots tops before after)
include plants

theorem occurrences_eq (steady : before.Steady [] holds) {id : NodeId}
    (fresh : before.Fresh after id) : after.occurrences id = after.ownerCount id := by
  have count := plants.steady.ownerCount_eq id
  rw [steady.holds_eq_zero fresh.2, List.count_nil] at count
  omega

theorem exists_above (steady : before.Steady [] holds) {id : NodeId}
    (fresh : before.Fresh after id) :
    id ∈ tops ∨ ∃ above, (above ∈ tops ∨ above ∈ roots) ∧ after.Below above id := by
  rcases plants.ranked with ⟨rank, rises⟩
  -- on the rank, which is lower at the parent
  induction height : rank id using Nat.strongRecOn generalizing id with
  | ind height induction =>
    subst height
    by_cases top : id ∈ tops
    · exact .inl top
    right
    have owned := plants.owners fresh
    rw [if_neg top, ← plants.occurrences_eq steady fresh] at owned
    rcases exists_parent (owned ▸ Nat.one_pos) with ⟨parent, member⟩
    by_cases old : before.Issued parent
    · by_cases root : parent ∈ roots
      · exact ⟨parent, .inr root, .child member⟩
      · rw [children_congr (plants.kept old root)] at member
        exact absurd (issued_of_contains (steady.child_live member)) fresh.2
    · have parentFresh : before.Fresh after parent :=
        ⟨issued_of_contains (contains_of_mem_children member), old⟩
      rcases induction _ (rises parent id parentFresh member) parentFresh rfl with
        parentTop | ⟨above, place, below⟩
      · exact ⟨parent, .inl parentTop, .child member⟩
      · exact ⟨above, place, .deeper below member⟩

end Plants
end Planted

/-- The children of a node grew by trees of new nodes, and nothing else has changed. -/
structure Forested (before : Arena) (parent : NodeId) (after : Arena) : Prop where
  fresh : ∀ id, before.Fresh after id →
    after.contains id = true ∧ after.occurrences id = 1 ∧ after.ownerCount id = 1 ∧
      after.Below parent id ∧ ¬ after.Below id id
  grown : ∃ node owners added, before.live? parent = some (node, owners) ∧
    after.live? parent =
      some ({ node with children := some (node.childArray ++ added) }, owners) ∧
    ∀ child ∈ added, before.Fresh after child
  others : ∀ id, before.Issued id → id ≠ parent → after.live? id = before.live? id

end Arena

/-! ## Loading -/

namespace Document

structure Load.Planted (holds : NodeId → Nat) (before : Arena) (root : NodeId) (load : Load) :
    Prop where
  root_eq : load.root = root
  plants : Plants holds [root] [] before load.arena
  grown : ∃ node owners added, before.live? root = some (node, owners) ∧
    load.arena.live? root =
      some ({ node with children := some (node.childArray ++ added) }, owners) ∧
    ∀ child ∈ added, before.Fresh load.arena child
  blocks : ∀ block ∈ load.blocks, before.Fresh load.arena block
  latest : ∀ node, load.latest = some node → before.Fresh load.arena node

namespace Load.Planted

variable {holds : NodeId → Nat} {before : Arena} {root : NodeId} {load : Load}
  {registry : Registry}

theorem contains_root (planted : load.Planted holds before root) :
    load.arena.contains root = true := by
  rcases planted.grown with ⟨node, owners, added, -, found, -⟩
  exact Arena.contains_iff.mpr ⟨_, _, found⟩

theorem parent_cases (planted : load.Planted holds before root) :
    load.arena.contains load.parent = true ∧
      (load.parent ∈ [root] ∨ before.Fresh load.arena load.parent) := by
  rcases List.mem_cons.mp load.parent_mem_opened with same | inside
  · rw [same, planted.root_eq]
    exact ⟨planted.contains_root, .inl (List.mem_singleton_self _)⟩
  · have fresh := planted.blocks _ inside
    exact ⟨planted.plants.live fresh, .inr fresh⟩

theorem names (planted : load.Planted holds before root) (names : NameTable)
    (warnings : Array Warning) :
    Load.Planted holds before root { load with arena := { load.arena with names }, warnings } :=
  ⟨planted.root_eq, planted.plants.names names, planted.grown, planted.blocks, planted.latest⟩

theorem warn (planted : load.Planted holds before root) (line : Nat) (problem : Problem) :
    (load.warn line problem).Planted holds before root :=
  ⟨planted.root_eq, planted.plants, planted.grown, planted.blocks, planted.latest⟩

theorem forget (planted : load.Planted holds before root) :
    Load.Planted holds before root { load with latest := none } :=
  ⟨planted.root_eq, planted.plants, planted.grown, planted.blocks, fun _ same => by cases same⟩

theorem hang (planted : load.Planted holds before root) {top : NodeId} {later : Arena}
    (inner : Plants holds [] [top] load.arena later) :
    Load.Planted holds before root
      { load with arena := (later.pushChild load.parent top).2, latest := some top } := by
  rcases planted.parent_cases with ⟨live, place⟩
  have given := Arena.issued_pushChild_iff later load.parent top
  have freshOuter {id : NodeId} (fresh : before.Fresh load.arena id) :
      before.Fresh (later.pushChild load.parent top).2 id :=
    ⟨(given id).mpr (inner.issued fresh.1), fresh.2⟩
  have topFresh : before.Fresh (later.pushChild load.parent top).2 top :=
    have fresh := inner.top_fresh (List.mem_singleton_self top)
    ⟨(given top).mpr fresh.1, fresh.2 ∘ planted.plants.issued⟩
  refine ⟨planted.root_eq, planted.plants.attach inner live place, ?_,
    fun block member => freshOuter (planted.blocks block member), fun node same => ?_⟩
  · rcases planted.grown with ⟨node, owners, added, found, grown, fresh⟩
    have reading := inner.live?_attached live root
    have rootOld := Arena.issued_of_contains planted.contains_root
    by_cases same : root = load.parent
    · rw [if_pos same, ← same, grown, same] at reading
      refine ⟨node, owners, added.push top, found, ?_, fun child member => ?_⟩
      · rw [Array.append_push]
        exact same ▸ reading
      · rcases Array.mem_push.mp member with old | rfl
        · exact freshOuter (fresh child old)
        · exact topFresh
    · have other : root ≠ top := by
        intro equal
        exact (inner.top_fresh (List.mem_singleton_self top)).2 (equal ▸ rootOld)
      rw [if_neg same, if_neg other, inner.live?_inner rootOld, grown] at reading
      exact ⟨node, owners, added, found, reading, fun child member =>
        freshOuter (fresh child member)⟩
  · cases same
    exact topFresh

theorem build (planted : load.Planted holds before root) (sprouts : registry.Sprouts)
    {request : BuildRequest} (below : request.parent = some load.parent) :
    Load.Planted holds before root
      { load with
        arena := (registry.build load.arena request).2
        latest := (registry.build load.arena request).1 } := by
  unfold Registry.build
  rcases sprouts.buildNode_cases sprouts_direct load.arena request with
    same | ⟨factory, nodeType, allowed, same⟩
  · rw [same]
    exact planted.forget
  · rw [same]
    rcases allowed load.arena nodeType request.name request.attrs
      planted.plants.steady.wellFormed with ⟨names, built⟩ | ⟨top, later, built, tree⟩
    · rw [built]
      exact (planted.names names load.warnings).forget
    · rw [built, below]
      exact planted.hang (tree.plants planted.plants.steady)

theorem addRecord (planted : load.Planted holds before root) (sprouts : registry.Sprouts)
    (line : Nat) (record : Record) :
    (load.addRecord registry line record).Planted holds before root := by
  rcases addRecord_eq registry load line record with ⟨warnings, same⟩
  rw [same]
  have interned := planted.names (load.arena.names.internAttrs record.attrs).2 warnings
  exact interned.build sprouts rfl

theorem openBlock (planted : load.Planted holds before root) (line : Nat) :
    (load.openBlock line).Planted holds before root := by
  unfold Load.openBlock
  split
  · rename_i node latest
    split
    · have fresh := planted.latest node latest
      have given {id : NodeId} (old : before.Fresh load.arena id) :
          before.Fresh (load.arena.ensureChildren node) id :=
        ⟨Arena.issued_updateLive node (by simp) old.1, old.2⟩
      refine ⟨planted.root_eq, planted.plants.modifyNode (.inr fresh) ?_, ?_,
        fun block member => ?_, fun other same => given (planted.latest other same)⟩
      · exact Node.childArray_ensureChildren
      · rcases planted.grown with ⟨content, owners, added, found, grown, freshAdded⟩
        have different : root ≠ node := by
          rintro rfl
          exact fresh.2 (Arena.issued_of_live found)
        refine ⟨content, owners, added, found, ?_, fun child member =>
          given (freshAdded child member)⟩
        rw [Arena.ensureChildren, Arena.live?_modifyNode, if_neg different, grown]
      · rcases List.mem_cons.mp member with rfl | inside
        · exact given fresh
        · exact given (planted.blocks block inside)
    · exact planted.warn ..
  · exact planted.warn ..

theorem closeBlock (planted : load.Planted holds before root) (line : Nat) :
    (load.closeBlock line).Planted holds before root := by
  rcases load with ⟨arena, root, _ | ⟨node, blocks⟩, latest, warnings⟩
  · exact planted.warn ..
  · refine ⟨planted.root_eq, planted.plants, planted.grown, fun block member => ?_,
      fun other same => ?_⟩
    · exact planted.blocks block (List.mem_cons_of_mem _ member)
    · cases same
      exact planted.blocks node (List.mem_cons_self ..)

theorem add (planted : load.Planted holds before root) (sprouts : registry.Sprouts) (line : Nat)
    (item : Item) : (load.add registry line item).Planted holds before root := by
  cases item with
  | record record => exact planted.addRecord sprouts line record
  | malformed problem => exact (planted.warn line problem).forget
  | opening => exact planted.openBlock line
  | closing => exact planted.closeBlock line
  | nothing => exact planted

theorem addAll (planted : load.Planted holds before root) (sprouts : registry.Sprouts)
    {options : Options} {rounds : Nat} {cursor : Cursor} :
    (load.addAll registry options rounds cursor).Planted holds before root := by
  induction rounds generalizing cursor load with
  | zero => exact planted
  | succ rounds induction =>
    unfold Load.addAll
    split
    · unfold Load.finish
      split
      · exact planted
      · exact planted.warn ..
    · rename_i item line _ _
      exact induction (planted.add sprouts line item)

theorem start (steady : before.Steady [] holds) (live : before.contains root = true) :
    Load.Planted holds before root ⟨before.ensureChildren root, root, [], none, #[]⟩ := by
  have plants := Plants.refl steady [root]
  refine ⟨rfl, plants.modifyNode (.inl (List.mem_singleton_self _)) Node.childArray_ensureChildren,
    ?_, fun _ member => absurd member List.not_mem_nil, fun _ same => by cases same⟩
  rcases Arena.contains_iff.mp live with ⟨node, owners, found⟩
  refine ⟨node, owners, #[], found, ?_, fun _ member => absurd member (Array.not_mem_empty _)⟩
  rw [Arena.ensureChildren, Arena.live?_modifyNode, if_pos rfl, found, Array.append_empty]
  rcases node with ⟨name, nodeType, attrs, _ | children, status, shareable⟩ <;> rfl

theorem forested (planted : load.Planted holds before root) (steady : before.Steady [] holds) :
    before.Forested root load.arena where
  fresh id fresh := by
    have plants := planted.plants
    have owners := plants.owners fresh
    rw [if_neg List.not_mem_nil] at owners
    refine ⟨plants.live fresh, by rw [plants.occurrences_eq steady fresh, owners], owners, ?_,
      plants.not_below_self (fun _ member => member) fresh.2⟩
    rcases plants.exists_above steady fresh with top | ⟨above, top | base, below⟩
    · exact absurd top List.not_mem_nil
    · exact absurd top List.not_mem_nil
    · rwa [List.mem_singleton.mp base] at below
  grown := planted.grown
  others id old different := planted.plants.kept old (different ∘ List.mem_singleton.mp)

end Load.Planted

/-- Whatever the text, a load below a live node plants trees there and changes nothing else. -/
theorem forested_load {arena : Arena} {holds : NodeId → Nat} {registry : Registry}
    {parent : NodeId} (steady : arena.Steady [] holds) (live : arena.contains parent = true)
    (sprouts : registry.Sprouts) (source : String) (options : Options) :
    arena.Forested parent (load source arena registry parent options).2 := by
  unfold load
  rw [if_pos live]
  exact ((Load.Planted.start steady live).addAll sprouts).forested steady

end Document

/-! ## A sample -/

namespace Factory

def nest (nodeType : NodeType) (name : String) (attrs : Option AttrList) (child : NodeId) : Node :=
  { Node.ofKind name nodeType.kind with nodeType, attrs, children := some #[child] }

def paired : Factory where
  label := "paired"
  build arena nodeType name attrs :=
    let (inner, arena) := arena.allocKind "inner" .int
    let (outer, arena) := arena.alloc (nest nodeType name attrs inner)
    (some outer, arena)

def barren : Factory where
  label := "barren"
  build arena _ _ _ := (none, arena)

theorem sprouts_paired : paired.Sprouts := by
  intro arena nodeType name attrs _
  have leaf : arena.Sprouts [(arena.allocKind "inner" .int).1] (arena.allocKind "inner" .int).2 :=
    sprouts_leaf arena rfl
  have build : paired.build arena nodeType name attrs =
      (some ((arena.allocKind "inner" .int).2.alloc
          (nest nodeType name attrs (arena.allocKind "inner" .int).1)).1,
        ((arena.allocKind "inner" .int).2.alloc
          (nest nodeType name attrs (arena.allocKind "inner" .int).1)).2) := rfl
  generalize (arena.allocKind "inner" .int).1 = inner at leaf build
  generalize (arena.allocKind "inner" .int).2 = middle at leaf build
  have children : (nest nodeType name attrs inner).childArray = #[inner] := rfl
  have outer := leaf.alloc (nest nodeType name attrs inner) (by simp [children])
    (by simp [children])
  have alone : [inner].filter (· ∉ (nest nodeType name attrs inner).childArray) = [] := by
    simp [children]
  rw [alone] at outer
  exact .inr ⟨_, _, build, outer⟩

theorem sprouts_barren : barren.Sprouts :=
  fun arena _ _ _ _ => .inl ⟨arena.names, rfl⟩

end Factory

namespace Document

def mixed : Registry :=
  (Registry.standard.register (some .paired) [("pair", .ofKind .composite)]).register
    (some .barren) [("void", .ofKind .base)]

theorem sprouts_mixed : mixed.Sprouts := by
  have pairs (factory : Factory) (same : some .paired = some factory) : factory.Sprouts := by
    cases same
    exact Factory.sprouts_paired
  have paired := (Registry.direct_standard.each Factory.Sprouts).register pairs
    [("pair", .ofKind .composite)]
  exact paired.register (fun _ same => by cases same; exact Factory.sprouts_barren) _

def plot : Ledger :=
  Ledger.initial.run
    [.alloc (.ofKind "a" .list), .retain ⟨0, 0⟩, .alloc (.ofKind "b" .base),
      .pushChild ⟨0, 0⟩ ⟨1, 0⟩, .alloc (.ofKind "c" .list), .pushChild ⟨2, 0⟩ ⟨2, 0⟩,
      .alloc (.ofKind "d" .base), .release ⟨3, 0⟩]

theorem steady_plot : plot.arena.Steady [] plot.holds :=
  Ledger.steady_run Arena.steady_empty (by decide +kernel)

def weeds : String := "x=pair\x7by=int,=1\x7d\x7d<!\nz=void,=2\x7bw=pair\x7b\x7d\x7bu"

theorem forested_weeds :
    plot.arena.Steady [] plot.holds ∧ plot.arena.contains ⟨0, 0⟩ = true ∧ mixed.Sprouts ∧
      (load weeds plot.arena mixed ⟨0, 0⟩ ⟨true⟩).2.live = 9 ∧
      plot.arena.Forested ⟨0, 0⟩ (load weeds plot.arena mixed ⟨0, 0⟩ ⟨true⟩).2 :=
  ⟨steady_plot, by decide +kernel, sprouts_mixed, by decide +kernel,
    forested_load steady_plot (by decide +kernel) sprouts_mixed weeds ⟨true⟩⟩

end Document
end RecordGraph
