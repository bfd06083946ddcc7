import RecordGraph.Path.Creation
import RecordGraph.Proofs.Arena.Planting
import RecordGraph.Proofs.Registry

/-!
# New nodes from factories

A factory of types is code of its own. All that is asked of it is that it stores new nodes and gives
the one among them that has no owner, or builds nothing. On the way it may intern names. Then
whatever a registry builds settles its accounts, but for the node that it gives.
-/

namespace RecordGraph
namespace Arena

def allocAll (arena : Arena) (nodes : List Node) : Arena :=
  nodes.foldl (fun arena node => (arena.alloc node).2) arena

def linkAll (arena : Arena) (links : List (NodeId × NodeId)) : Arena :=
  links.foldl (fun arena link => (arena.pushChild link.1 link.2).2) arena

/-- Nodes were stored, and the one that was given, if any, is the only new one without owners. Names
may have been interned too: those that were there have kept their numbers. -/
def Stores (arena : Arena) (built : Option NodeId × Arena) : Prop :=
  ∃ nodes names, built.2 = { arena.allocAll nodes with names } ∧
    (∀ {name attr}, arena.names.query name = some attr → names.query name = some attr) ∧
    ∀ id, built.1 = some id ↔ ¬ arena.Issued id ∧ built.2.isUnowned id = true

section

variable {arena : Arena}

theorem wellFormed_alloc (wellFormed : arena.WellFormed) (node : Node) :
    (arena.alloc node).2.WellFormed :=
  (placed_place (wellFormed_adopt wellFormed node) _).wellFormed

theorem steady_allocAll {holds : NodeId → Nat} (steady : arena.Steady [] holds)
    (nodes : List Node) : (arena.allocAll nodes).Steady [] holds := by
  induction nodes generalizing arena with
  | nil => exact steady
  | cons node nodes induction => exact induction (steady.alloc node)

theorem steady_linkAll {holds : NodeId → Nat} (steady : arena.Steady [] holds)
    (links : List (NodeId × NodeId)) : (arena.linkAll links).Steady [] holds := by
  induction links generalizing arena with
  | nil => exact steady
  | cons link links induction => exact induction (steady.pushChild link.1 link.2)

theorem follows_allocAll (wellFormed : arena.WellFormed) (nodes : List Node) :
    ∃ fresh, Follows fresh arena (arena.allocAll nodes) ∧ ∀ id ∈ fresh, ¬ arena.Issued id := by
  induction nodes generalizing arena with
  | nil => exact ⟨[], .refl arena, nofun⟩
  | cons node nodes induction =>
    have first := follows_alloc wellFormed node
    obtain ⟨fresh, rest, new⟩ := induction (wellFormed_alloc wellFormed node)
    refine ⟨(arena.alloc node).1 :: fresh, first.trans rest, fun id member => ?_⟩
    rcases List.mem_cons.mp member with same | member
    · rw [same]
      exact not_issued_alloc wellFormed node
    · exact fun issued => new id member (first.issued issued)

theorem Stores.settles {built : Option NodeId × Arena}
    (stores : arena.WellFormed → arena.Stores built) :
    Settles built.1.toList arena built.2 := by
  intro holds steady
  obtain ⟨nodes, names, same, -, given⟩ := stores steady.wellFormed
  obtain ⟨fresh, stored, new⟩ := follows_allocAll steady.wellFormed nodes
  have named := Settles.names (arena.allocAll nodes) names holds (steady_allocAll steady nodes)
  have follows := stored.trans named.2
  rw [← same] at named follows
  rw [List.append_nil] at follows
  refine ⟨named.1, follows.contains, follows.issued, fun {id} member => ?_, fun {id} zero => ?_⟩
  · have unowned := ((given id).mp (Option.mem_toList.mp member)).2
    obtain ⟨node, found⟩ := isUnowned_iff.mp unowned
    exact issued_of_live found
  · rcases follows.unowned zero with earlier | member
    · exact .inl earlier
    · exact .inr (Option.mem_toList.mpr ((given id).mpr ⟨new id member, zero⟩))

theorem stores_alloc (wellFormed : arena.WellFormed) (node : Node) :
    arena.Stores (some (arena.alloc node).1, (arena.alloc node).2) := by
  refine ⟨[node], (arena.alloc node).2.names, rfl, fun {name attr} known => ?_, fun id => ?_⟩
  · rwa [names_alloc wellFormed]
  have placed := placed_place (wellFormed_adopt wellFormed node) (arena.adopt node).1
  constructor
  · rintro ⟨⟩
    exact ⟨not_issued_alloc wellFormed node, isUnowned_iff.mpr ⟨_, placed.live?_same⟩⟩
  · rintro ⟨new, unowned⟩
    rcases (follows_alloc wellFormed node).unowned unowned with earlier | member
    · obtain ⟨content, found⟩ := isUnowned_iff.mp earlier
      exact absurd (issued_of_live found) new
    · rw [List.mem_singleton.mp member]

end

end Arena

/-- Whatever it is asked for, the factory only stores new nodes and interns names. -/
def Factory.Allocates (factory : Factory) : Prop :=
  ∀ (arena : Arena) nodeType name attrs, arena.WellFormed →
    arena.Stores (factory.build arena nodeType name attrs)

theorem allocates_direct : Factory.direct.Allocates :=
  fun _ _ _ _ wellFormed => Arena.stores_alloc wellFormed _

theorem settles_buildLocal (arena : Arena) (nodeType : NodeType) (name : String)
    (attrs : Option AttrList) :
    Arena.Settles [(buildLocal arena nodeType name attrs).1] arena
      (buildLocal arena nodeType name attrs).2 :=
  .alloc arena _

namespace Registry

/-- All factories of a registry only store new nodes and intern names. -/
def Allocates (registry : Registry) : Prop :=
  ∀ (key : String) (entry : RegistryEntry) (factory : Factory),
    registry.bindings[key]? = some entry → entry.factory = some factory → factory.Allocates

variable {registry : Registry}

theorem Direct.allocates (direct : registry.Direct) : registry.Allocates :=
  direct.each Factory.Allocates

theorem allocates_standard : standard.Allocates :=
  direct_standard.allocates

theorem Allocates.each (allocates : registry.Allocates) : registry.Each Factory.Allocates :=
  allocates

theorem Allocates.stores_buildTyped (allocates : registry.Allocates) {arena : Arena}
    (wellFormed : arena.WellFormed) (nodeType : NodeType) (name : String)
    (attrs : Option AttrList) :
    arena.Stores (registry.buildTyped arena nodeType name attrs) := by
  rcases allocates.each.buildTyped_cases allocates_direct arena nodeType name attrs with
    ⟨factory, allowed, same⟩
  rw [same]
  exact allowed arena nodeType name attrs wellFormed

theorem Allocates.settles_buildNode (allocates : registry.Allocates) (arena : Arena)
    (request : BuildRequest) :
    Arena.Settles (registry.buildNode arena request).1.toList arena
      (registry.buildNode arena request).2 := by
  rcases allocates.each.buildNode_cases allocates_direct arena request with
    same | ⟨factory, nodeType, allowed, same⟩
  · rw [same]
    exact .refl arena
  · rw [same]
    exact Arena.Stores.settles fun wellFormed => allowed arena nodeType _ _ wellFormed

theorem Allocates.settles_build (allocates : registry.Allocates) (arena : Arena)
    (request : BuildRequest) (rootless : request.parent = none) :
    Arena.Settles (registry.build arena request).1.toList arena
      (registry.build arena request).2 := by
  have settles := allocates.settles_buildNode arena request
  unfold build
  split
  · rename_i same
    rwa [same] at settles
  · rename_i same
    rw [same] at settles
    simpa [rootless] using settles

end Registry

theorem Path.settles_freshNode {registry : Registry} (allocates : registry.Allocates)
    (template : Option NodeId) (name : String) (arena : Arena) :
    Arena.Settles [(freshNode registry template name arena).1] arena
      (freshNode registry template name arena).2 := by
  unfold freshNode
  have settles := allocates.settles_build arena
    { BuildRequest.named name with
      nodeType := some (((template.bind arena.node?).map (·.nodeType)).getD (.ofKind .base)) } rfl
  simp only
  split
  · rename_i same
    rwa [same] at settles
  · rename_i same
    rw [same] at settles
    exact settles.trans (settles_buildLocal _ _ _ _)

/-! ## Trees from factories -/

/-- Whatever it is asked for, the factory stores a tree of new nodes and gives its top, or it builds
nothing. Either way it may intern names. -/
def Factory.Sprouts (factory : Factory) : Prop :=
  ∀ (arena : Arena) nodeType name attrs, arena.WellFormed →
    (∃ names, factory.build arena nodeType name attrs = (none, { arena with names })) ∨
      ∃ top later, factory.build arena nodeType name attrs = (some top, later) ∧
        arena.Sprouts [top] later

def Registry.Sprouts (registry : Registry) : Prop :=
  registry.Each Factory.Sprouts

theorem sprouts_leaf (arena : Arena) {node : Node} (childless : node.childArray = #[]) :
    arena.Sprouts [(arena.alloc node).1] (arena.alloc node).2 :=
  .alloc node .start (by simp [childless]) (by simp [childless])

theorem sprouts_direct : Factory.direct.Sprouts :=
  fun arena _ _ _ _ => .inr ⟨_, _, rfl, sprouts_leaf arena (Node.childArray_ofKind ..)⟩

theorem Registry.Direct.sprouts {registry : Registry} (direct : registry.Direct) :
    registry.Sprouts :=
  direct.each Factory.Sprouts

theorem Path.sprouts_freshNode {registry : Registry} (sprouts : registry.Sprouts)
    (template : Option NodeId) (name : String) {arena : Arena} (wellFormed : arena.WellFormed) :
    arena.Sprouts [(freshNode registry template name arena).1]
      (freshNode registry template name arena).2 := by
  unfold freshNode
  generalize ((template.bind arena.node?).map (·.nodeType)).getD (.ofKind .base) = nodeType
  simp only [Registry.build, Registry.buildNode, BuildRequest.named]
  rcases sprouts.buildTyped_cases sprouts_direct arena nodeType name none with
    ⟨factory, allowed, same⟩
  rw [same]
  rcases allowed arena nodeType name none wellFormed with ⟨names, built⟩ | ⟨top, later, built, tree⟩
  · rw [built]
    -- a factory that builds nothing may still have interned names
    exact .alloc _ (.names names .start) (by simp [Node.childArray_ofKind])
      (by simp [Node.childArray_ofKind])
  · rw [built]
    exact tree

end RecordGraph
