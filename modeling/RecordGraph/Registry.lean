import RecordGraph.Arena.Links
import Std.Data.ExtTreeMap

/-!
# Type registries

A registry binds type names to node types. Names are compared without regard to ASCII case. A
binding may come with a factory that builds the nodes of the type; without one a node is built in
the arena directly. A type that several names are bound to is known by the name bound first.
-/

namespace RecordGraph

structure Factory where
  label : String
  build : Arena → NodeType → String → Option AttrList → Option NodeId × Arena

def buildLocal (arena : Arena) (nodeType : NodeType) (name : String) (attrs : Option AttrList) :
    NodeId × Arena :=
  arena.alloc { Node.ofKind name nodeType.kind with nodeType, attrs }

namespace Factory

def direct : Factory where
  label := "local"
  build arena nodeType name attrs :=
    let (id, arena) := buildLocal arena nodeType name attrs
    (some id, arena)

end Factory

/-- The kind of a record that names no type: its first attribute decides, and a record without
attributes is a plain node. A record with neither a name nor attributes is no record. -/
def inferKind (name : String) (attrs : Option AttrList) : Option Kind :=
  match attrs.bind (·.entries.head?) with
  | none => if name = "" then none else some .base
  | some (_, .text _) => some .string
  | some (_, .int _) => some .int
  | some (_, .real _) => some .real
  | some _ => some .base

structure RegistryEntry where
  name : String
  nodeType : NodeType
  factory : Option Factory

namespace RegistryEntry

def key (entry : RegistryEntry) : String :=
  Text.asciiLowerCase entry.name

end RegistryEntry

structure Registry where
  bindings : Std.ExtTreeMap String RegistryEntry
  firstKeys : Std.ExtTreeMap UInt32 String

structure BuildRequest where
  name : String
  nodeType : Option NodeType
  typeName : Option String
  attrs : Option AttrList
  parent : Option NodeId

namespace BuildRequest

def named (name : String) : BuildRequest := ⟨name, none, none, none, none⟩

end BuildRequest

namespace Registry

def empty : Registry := ⟨∅, ∅⟩

def bind (registry : Registry) (entry : RegistryEntry) : Registry :=
  ⟨registry.bindings.insert entry.key entry,
    registry.firstKeys.insertIfNew entry.nodeType.pack entry.key⟩

def register (registry : Registry) (factory : Option Factory)
    (mapping : List (String × NodeType)) : Registry :=
  mapping.foldl (fun registry (name, nodeType) => registry.bind ⟨name, nodeType, factory⟩) registry

def kindNames : List (Kind × List String) :=
  [(.base, ["base", "item"]),
   (.list, ["list"]),
   (.composite, ["composite"]),
   (.reference, ["reference", "ref"]),
   (.map, ["map"]),
   (.registry, ["registry", "factory"]),
   (.int, ["int", "integer"]),
   (.real, ["real", "float", "double"]),
   (.string, ["string", "str", "text"]),
   (.iterator, ["iterator", "loop", "for"]),
   (.guard, ["guard", "if"]),
   (.switch, ["switch"]),
   (.expr, ["expr"])]

def standard : Registry :=
  empty.register none
    (kindNames.flatMap fun (kind, names) => names.map fun name => (name, .ofKind kind))

def size (registry : Registry) : Nat :=
  registry.bindings.size

def entry? (registry : Registry) (name : String) : Option RegistryEntry :=
  registry.bindings[Text.asciiLowerCase name]?

def typeOf? (registry : Registry) (name : String) : Option NodeType :=
  (registry.entry? name).map (·.nodeType)

def firstFor? (registry : Registry) (nodeType : NodeType) : Option RegistryEntry :=
  registry.firstKeys[nodeType.pack]?.bind fun key => registry.bindings[key]?

def typeName? (registry : Registry) (nodeType : NodeType) : Option String :=
  ((registry.firstFor? nodeType).filter (·.nodeType == nodeType)).map (·.name)

def sorted (registry : Registry) : List RegistryEntry :=
  registry.bindings.values

def buildWith (factory : Option Factory) (arena : Arena) (nodeType : NodeType) (name : String)
    (attrs : Option AttrList) : Option NodeId × Arena :=
  (factory.getD .direct).build arena nodeType name attrs

def buildTyped (registry : Registry) (arena : Arena) (nodeType : NodeType) (name : String)
    (attrs : Option AttrList) : Option NodeId × Arena :=
  buildWith ((registry.firstFor? nodeType).bind (·.factory)) arena nodeType name attrs

/-- Build the node of a request. The type is the explicit one, else that of the type name, else it
is inferred. A known type name chooses its own factory. -/
def buildNode (registry : Registry) (arena : Arena) (request : BuildRequest) :
    Option NodeId × Arena :=
  match request.nodeType with
  | some nodeType => registry.buildTyped arena nodeType request.name request.attrs
  | none =>
    match request.typeName.bind registry.entry? with
    | some entry => buildWith entry.factory arena entry.nodeType request.name request.attrs
    | none =>
      match inferKind request.name request.attrs with
      | some kind => registry.buildTyped arena (.ofKind kind) request.name request.attrs
      | none => (none, arena)

def build (registry : Registry) (arena : Arena) (request : BuildRequest) :
    Option NodeId × Arena :=
  match registry.buildNode arena request with
  | (none, arena) => (none, arena)
  | (some id, arena) =>
    match request.parent with
    | some parent => (some id, (arena.pushChild parent id).2)
    | none => (some id, arena)

def toFactory (registry : Registry) : Factory where
  label := "registry"
  build := registry.buildTyped

example : standard.size = 24 := by decide +kernel

example : standard.typeOf? "Loop" = some (.ofKind .iterator) := by decide +kernel

example : standard.typeName? (.ofKind .iterator) = some "iterator" := by decide +kernel

end Registry
end RecordGraph
