import RecordGraph.Proofs.Allocation

/-!
# Arenas that only gain

Storing nodes, appending children and interning names take nothing away: every node that was there
has the children it had, in their places, and its attribute values, and every name has its number.
Nodes come and go under other operations, but not under these.
-/

namespace RecordGraph

/-- A node has every attribute value of another one, and every child in its place. -/
structure Node.Enriched (node richer : Node) : Prop where
  attr : ∀ {attr value}, node.attr? attr = some value → richer.attr? attr = some value
  child : ∀ {index : Nat} {child}, node.childArray[index]? = some child →
    richer.childArray[index]? = some child

namespace Node.Enriched

theorem refl (node : Node) : node.Enriched node :=
  ⟨id, id⟩

theorem trans {first second third : Node} (left : first.Enriched second)
    (right : second.Enriched third) : first.Enriched third :=
  ⟨right.attr ∘ left.attr, right.child ∘ left.child⟩

theorem ensureChildren (node : Node) : node.Enriched node.ensureChildren := by
  rcases node with ⟨name, nodeType, attrs, _ | children, status, shareable⟩
  · exact ⟨id, id⟩
  · exact ⟨id, id⟩

theorem push (node : Node) (child : NodeId) : node.Enriched (node.push child) where
  attr := by
    rcases node with ⟨name, nodeType, attrs, _ | children, status, shareable⟩
    · exact id
    · exact id
  child {index other} found := by
    have inside : index < node.childArray.size := (Array.getElem?_eq_some_iff.mp found).1
    rw [childArray_push, Array.getElem?_push, if_neg (Nat.ne_of_lt inside), found]

end Node.Enriched

/-- Every node of an arena is there in a later one with all that it had, and so is every name. -/
structure Arena.Enriched (arena later : Arena) : Prop where
  node : ∀ {id node}, arena.node? id = some node →
    ∃ richer, later.node? id = some richer ∧ node.Enriched richer
  name : ∀ {name attr}, arena.names.query name = some attr → later.names.query name = some attr

namespace Arena

variable {arena : Arena}

theorem contains_iff_node? {id : NodeId} :
    arena.contains id = true ↔ ∃ node, arena.node? id = some node := by
  simp [contains, node?, Option.isSome_iff_exists]

namespace Enriched

theorem refl (arena : Arena) : arena.Enriched arena :=
  ⟨fun {_ node} found => ⟨node, found, .refl node⟩, id⟩

theorem trans {first second third : Arena} (left : first.Enriched second)
    (right : second.Enriched third) : first.Enriched third where
  node found := by
    rcases left.node found with ⟨middle, foundMiddle, gains⟩
    rcases right.node foundMiddle with ⟨last, foundLast, gainsMore⟩
    exact ⟨last, foundLast, gains.trans gainsMore⟩
  name := right.name ∘ left.name

section

variable {later : Arena} (enriched : arena.Enriched later)

include enriched

theorem contains {id : NodeId} (live : arena.contains id = true) : later.contains id = true := by
  rcases contains_iff_node?.mp live with ⟨node, found⟩
  rcases enriched.node found with ⟨richer, foundLater, -⟩
  exact contains_iff_node?.mpr ⟨richer, foundLater⟩

theorem child {id child : NodeId} {index : Nat} (found : arena.child? id index = some child) :
    later.child? id index = some child := by
  unfold child? children at found ⊢
  cases content : arena.node? id with
  | none => simp [content] at found
  | some node =>
    rw [content] at found
    rcases enriched.node content with ⟨richer, foundLater, gains⟩
    rw [foundLater]
    exact gains.child found

theorem attr {id : NodeId} {attr : AttrId} {value : Value}
    (found : arena.attrById? id attr = some value) : later.attrById? id attr = some value := by
  unfold attrById? at found ⊢
  cases content : arena.node? id with
  | none => simp [content] at found
  | some node =>
    rw [content] at found
    rcases enriched.node content with ⟨richer, foundLater, gains⟩
    rw [foundLater]
    exact gains.attr found

end

/-! ## What enriches an arena -/

theorem modifyNode (arena : Arena) (id : NodeId) {change : Node → Node}
    (gains : ∀ node : Node, node.Enriched (change node)) :
    arena.Enriched (arena.modifyNode id change) where
  node {other node} found := by
    rw [node?, live?_modifyNode]
    split
    · rename_i same
      subst same
      rw [node?] at found
      cases content : arena.live? other with
      | none => simp [content] at found
      | some pair =>
        simp only [content, Option.map_some, Option.some.injEq] at found
        exact ⟨_, rfl, found ▸ gains pair.1⟩
    · exact ⟨node, found, .refl node⟩
  name known := known

theorem retain (arena : Arena) (id : NodeId) : arena.Enriched (arena.retain id) where
  node {other node} found := by
    refine ⟨node, ?_, .refl node⟩
    rw [node?, live?_retain]
    split
    · rename_i same
      subst same
      simpa [node?, Function.comp_def] using found
    · exact found
  name known := known

theorem ensureChildren (arena : Arena) (id : NodeId) : arena.Enriched (arena.ensureChildren id) :=
  .modifyNode arena id .ensureChildren

theorem pushChild (arena : Arena) (parent child : NodeId) :
    arena.Enriched (arena.pushChild parent child).2 := by
  unfold Arena.pushChild
  split
  · exact (Enriched.retain arena child).trans (.modifyNode _ parent fun node => .push node child)
  · exact .refl arena

theorem names (arena : Arena) {names : NameTable}
    (kept : ∀ {name attr}, arena.names.query name = some attr → names.query name = some attr) :
    arena.Enriched { arena with names } :=
  ⟨fun {_ node} found => ⟨node, found, .refl node⟩, kept⟩

theorem of_placed {later : Arena} {node : Node} {id : NodeId}
    (placed : arena.Placed node id later) : arena.Enriched later where
  node {other content} found := by
    refine ⟨content, ?_, .refl content⟩
    have different : other ≠ id := by
      rintro rfl
      rw [node?, placed.live?_before] at found
      cases found
    rwa [node?, placed.live?_other different]
  name known := by rwa [placed.names]

theorem adopt (arena : Arena) (node : Node) : arena.Enriched (arena.adopt node).2 :=
  adopt_induction node (.refl arena) fun later child kept => kept.trans (.retain later child)

theorem alloc (wellFormed : arena.WellFormed) (node : Node) :
    arena.Enriched (arena.alloc node).2 :=
  (Enriched.adopt arena node).trans (.of_placed (placed_place (wellFormed_adopt wellFormed node) _))

theorem allocAll (wellFormed : arena.WellFormed) (nodes : List Node) :
    arena.Enriched (arena.allocAll nodes) := by
  induction nodes generalizing arena with
  | nil => exact .refl arena
  | cons node nodes induction =>
    exact (Enriched.alloc wellFormed node).trans (induction (wellFormed_alloc wellFormed node))

end Enriched

theorem wellFormed_allocAll (wellFormed : arena.WellFormed) (nodes : List Node) :
    (arena.allocAll nodes).WellFormed := by
  induction nodes generalizing arena with
  | nil => exact wellFormed
  | cons node nodes induction => exact induction (wellFormed_alloc wellFormed node)

theorem Stores.enriched {built : Option NodeId × Arena} (stores : arena.Stores built)
    (wellFormed : arena.WellFormed) : arena.Enriched built.2 ∧ built.2.WellFormed := by
  rcases stores with ⟨nodes, names, same, kept, -⟩
  have enriched := Enriched.allocAll wellFormed nodes
  have stands := wellFormed_allocAll wellFormed nodes
  rw [same]
  exact ⟨⟨enriched.node, kept⟩, stands.free_nodup, stands.mem_free, stands.live_eq⟩

structure GainsUnowned (arena : Arena) (id : NodeId) (later : Arena) : Prop where
  enriched : arena.Enriched later
  wellFormed : later.WellFormed
  unowned : later.isUnowned id = true

theorem Stores.gainsUnowned {id : NodeId} {later : Arena} (stores : arena.Stores (some id, later))
    (wellFormed : arena.WellFormed) : arena.GainsUnowned id later := by
  have enriched := stores.enriched wellFormed
  rcases stores with ⟨nodes, names, -, -, given⟩
  exact ⟨enriched.1, enriched.2, ((given id).mp rfl).2⟩

end Arena

theorem Path.gainsUnowned_freshNode {registry : Registry} (allocates : registry.Allocates)
    (template : Option NodeId) (name : String) {arena : Arena} (wellFormed : arena.WellFormed) :
    arena.GainsUnowned (freshNode registry template name arena).1
      (freshNode registry template name arena).2 := by
  unfold freshNode
  have stores := allocates.stores_buildTyped wellFormed
    (((template.bind arena.node?).map (·.nodeType)).getD (.ofKind .base)) name none
  simp only [Registry.build, Registry.buildNode, BuildRequest.named]
  generalize registry.buildTyped arena _ name none = built at stores ⊢
  rcases built with ⟨_ | node, later⟩
  · have enriched := stores.enriched wellFormed
    have direct := (allocates_direct later (.ofKind .base) name none enriched.2).gainsUnowned
      enriched.2
    exact ⟨enriched.1.trans direct.enriched, direct.wellFormed, direct.unowned⟩
  · exact stores.gainsUnowned wellFormed

end RecordGraph
