import RecordGraph.Registry

/-!
# The standard registry

Each kind is known by its name: the name stands for the kind, and the kind is written by the name.
No binding has a factory of its own, so all that such a registry does is to store leaves.
-/

namespace RecordGraph

theorem Kind.name_ne_empty (kind : Kind) : kind.name ≠ "" := by
  cases kind <;> decide

theorem Node.childArray_ofKind (name : String) (kind : Kind) (nodeType : NodeType)
    (attrs : Option AttrList) :
    ({ Node.ofKind name kind with nodeType, attrs } : Node).childArray = #[] := by
  unfold ofKind childArray
  split <;> rfl

namespace Registry

private theorem names_all : ∀ kind ∈ Kind.all,
    standard.typeName? (.ofKind kind) = some kind.name ∧
      (standard.entry? kind.name).map (fun entry => (entry.nodeType, entry.factory.isNone)) =
        some (.ofKind kind, true) := by
  decide +kernel

theorem typeName?_ofKind (kind : Kind) :
    standard.typeName? (.ofKind kind) = some kind.name :=
  (names_all kind kind.mem_all).1

theorem entry?_name (kind : Kind) :
    ∃ entry, standard.entry? kind.name = some entry ∧ entry.nodeType = .ofKind kind ∧
      entry.factory.isNone := by
  have bound := (names_all kind kind.mem_all).2
  rcases Option.map_eq_some_iff.mp bound with ⟨entry, found, same⟩
  rw [Prod.mk.injEq] at same
  exact ⟨entry, found, same⟩

theorem typeOf?_name (kind : Kind) : standard.typeOf? kind.name = some (.ofKind kind) := by
  rcases entry?_name kind with ⟨entry, found, same, -⟩
  rw [typeOf?, found, Option.map_some, same]

/-! ## Factories -/

def Each (good : Factory → Prop) (registry : Registry) : Prop :=
  ∀ (key : String) (entry : RegistryEntry) (factory : Factory),
    registry.bindings[key]? = some entry → entry.factory = some factory → good factory

section

variable {good : Factory → Prop} {registry : Registry} (each : registry.Each good)

include each

theorem Each.bind {entry : RegistryEntry}
    (sound : ∀ factory, entry.factory = some factory → good factory) :
    (registry.bind entry).Each good := by
  intro key other factory found same
  simp only [Registry.bind, Std.ExtTreeMap.getElem?_insert] at found
  split at found
  · cases found
    exact sound factory same
  · exact each key other factory found same

theorem Each.register {factory : Option Factory}
    (sound : ∀ some, factory = .some some → good some) (mapping : List (String × NodeType)) :
    (registry.register factory mapping).Each good := by
  unfold Registry.register
  induction mapping generalizing registry with
  | nil => exact each
  | cons binding mapping induction => exact induction (each.bind sound)

variable (direct : good .direct)

include direct

theorem Each.buildTyped_cases (arena : Arena) (nodeType : NodeType) (name : String)
    (attrs : Option AttrList) :
    ∃ factory, good factory ∧ registry.buildTyped arena nodeType name attrs =
      factory.build arena nodeType name attrs := by
  unfold buildTyped buildWith
  cases chosen : (registry.firstFor? nodeType).bind (·.factory) with
  | none => exact ⟨_, direct, rfl⟩
  | some factory =>
    rcases Option.bind_eq_some_iff.mp chosen with ⟨entry, found, same⟩
    rcases Option.bind_eq_some_iff.mp found with ⟨key, -, foundEntry⟩
    exact ⟨factory, each key entry factory foundEntry same, rfl⟩

theorem Each.buildNode_cases (arena : Arena) (request : BuildRequest) :
    registry.buildNode arena request = (none, arena) ∨
      ∃ factory nodeType, good factory ∧ registry.buildNode arena request =
        factory.build arena nodeType request.name request.attrs := by
  have typed (nodeType : NodeType) := each.buildTyped_cases direct arena nodeType request.name
    request.attrs
  unfold buildNode
  split
  · rename_i nodeType _
    rcases typed nodeType with ⟨factory, allowed, same⟩
    exact .inr ⟨factory, nodeType, allowed, same⟩
  · split
    · rename_i entry found
      rcases Option.bind_eq_some_iff.mp found with ⟨name, -, foundEntry⟩
      unfold buildWith
      cases chosen : entry.factory with
      | none => exact .inr ⟨_, entry.nodeType, direct, rfl⟩
      | some factory =>
        exact .inr ⟨factory, entry.nodeType, each _ entry factory foundEntry chosen, rfl⟩
    · split
      · rename_i kind _
        rcases typed (.ofKind kind) with ⟨factory, allowed, same⟩
        exact .inr ⟨factory, .ofKind kind, allowed, same⟩
      · exact .inl rfl

end

/-! ## Registries without factories -/

def Direct (registry : Registry) : Prop :=
  ∀ (key : String) (entry : RegistryEntry), registry.bindings[key]? = some entry →
    entry.factory = none

theorem direct_empty : empty.Direct :=
  fun key entry found => by simp [empty] at found

theorem Direct.register {registry : Registry} (direct : registry.Direct)
    (mapping : List (String × NodeType)) : (registry.register none mapping).Direct := by
  unfold Registry.register
  induction mapping generalizing registry with
  | nil => exact direct
  | cons binding mapping induction =>
    apply induction
    intro key entry found
    simp only [Registry.bind, Std.ExtTreeMap.getElem?_insert] at found
    split at found
    · cases found
      rfl
    · exact direct key entry found

theorem direct_standard : standard.Direct :=
  direct_empty.register _

theorem Direct.each {registry : Registry} (direct : registry.Direct) (good : Factory → Prop) :
    registry.Each good := by
  intro key entry factory found same
  rw [direct key entry found] at same
  cases same

/-- A leaf with the name and the attributes of a request. Its type is the one asked for, one that a
name is bound to, or the untagged type of a kind. -/
structure Asks (registry : Registry) (request : BuildRequest) (node : Node) : Prop where
  childless : node.childArray = #[]
  name : node.name = request.name
  attrs : node.attrs = request.attrs
  nodeType : request.nodeType = some node.nodeType ∨
    (∃ (key : String) (entry : RegistryEntry), registry.bindings[key]? = some entry ∧
      entry.nodeType = node.nodeType) ∨
    node.nodeType = .ofKind node.kind

theorem asks_ofKind {registry : Registry} {request : BuildRequest} {nodeType : NodeType}
    (possible : request.nodeType = some nodeType ∨
      (∃ (key : String) (entry : RegistryEntry), registry.bindings[key]? = some entry ∧
        entry.nodeType = nodeType) ∨ nodeType = .ofKind nodeType.kind) :
    registry.Asks request
      { Node.ofKind request.name nodeType.kind with nodeType, attrs := request.attrs } :=
  ⟨Node.childArray_ofKind .., rfl, rfl, possible⟩

private theorem untagged_all : ∀ binding ∈ standard.bindings.toList,
    binding.2.nodeType.tag = 0 := by
  decide +kernel

theorem Asks.untagged {request : BuildRequest} {node : Node} (asks : standard.Asks request node)
    (untyped : request.nodeType = none) : node.nodeType.tag = 0 := by
  rcases asks.nodeType with given | ⟨key, entry, found, same⟩ | same
  · rw [untyped] at given
    cases given
  · rw [← same]
    exact untagged_all (key, entry) (Std.ExtTreeMap.mem_toList_iff_getElem?_eq_some.mpr found)
  · rw [same]
    rfl

section

variable {registry : Registry} (direct : registry.Direct)
include direct

theorem Direct.buildTyped (arena : Arena) (nodeType : NodeType) (name : String)
    (attrs : Option AttrList) :
    registry.buildTyped arena nodeType name attrs =
      Factory.direct.build arena nodeType name attrs := by
  have none : (registry.firstFor? nodeType).bind (·.factory) = none := by
    rw [Option.bind_eq_none_iff]
    intro entry found
    rcases Option.bind_eq_some_iff.mp found with ⟨key, _, foundEntry⟩
    exact direct key entry foundEntry
  rw [Registry.buildTyped, buildWith, none, Option.getD_none]

theorem Direct.buildNode (arena : Arena) (request : BuildRequest) :
    registry.buildNode arena request = (none, arena) ∨
      ∃ node : Node, registry.Asks request node ∧
        registry.buildNode arena request = (some (arena.alloc node).1, (arena.alloc node).2) := by
  unfold Registry.buildNode
  split
  · rename_i nodeType given
    rw [direct.buildTyped]
    exact .inr ⟨_, asks_ofKind (.inl given), rfl⟩
  · split
    · rename_i entry found
      rcases Option.bind_eq_some_iff.mp found with ⟨key, _, foundEntry⟩
      rw [buildWith, direct _ entry foundEntry]
      exact .inr ⟨_, asks_ofKind (.inr (.inl ⟨_, entry, foundEntry, rfl⟩)), rfl⟩
    · split
      · rename_i kind _
        rw [direct.buildTyped]
        exact .inr ⟨_, asks_ofKind (.inr (.inr rfl)), rfl⟩
      · exact .inl rfl

theorem Direct.build (arena : Arena) {request : BuildRequest} (rootless : request.parent = none) :
    registry.build arena request = (none, arena) ∨
      ∃ node : Node, registry.Asks request node ∧
        registry.build arena request = (some (arena.alloc node).1, (arena.alloc node).2) := by
  unfold Registry.build
  rcases direct.buildNode arena request with same | ⟨node, asks, same⟩
  · rw [same]
    exact .inl rfl
  · rw [same, rootless]
    exact .inr ⟨node, asks, rfl⟩

theorem Direct.build_below (arena : Arena) {request : BuildRequest} {parent : NodeId}
    (below : request.parent = some parent) :
    registry.build arena request = (none, arena) ∨
      ∃ node : Node, registry.Asks request node ∧
        registry.build arena request =
          (some (arena.alloc node).1,
            ((arena.alloc node).2.pushChild parent (arena.alloc node).1).2) := by
  unfold Registry.build
  rcases direct.buildNode arena request with same | ⟨node, asks, same⟩
  · rw [same]
    exact .inl rfl
  · rw [same, below]
    exact .inr ⟨node, asks, rfl⟩

end

end Registry
end RecordGraph
