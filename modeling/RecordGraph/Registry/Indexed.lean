import RecordGraph.Registry

/-!
# Registries by places

The bindings of a registry can be kept in one row, in the order in which their names first came. A
name is then known by its place in the row, and so is the first binding made for a type. A name that
is bound again keeps its place. A place outside of the row stops the program.
-/

namespace RecordGraph

structure IndexedRegistry where
  entries : Array RegistryEntry
  places : Std.ExtTreeMap String Nat
  firstPlaces : Std.ExtTreeMap UInt32 Nat

namespace IndexedRegistry

def empty : IndexedRegistry := ⟨#[], ∅, ∅⟩

def put? (registry : IndexedRegistry) (entry : RegistryEntry) :
    Option (Nat × IndexedRegistry) :=
  match registry.places[entry.key]? with
  | some place =>
    if place < registry.entries.size then
      some (place, { registry with entries := registry.entries.setIfInBounds place entry })
    else none
  | none =>
    let place := registry.entries.size
    some (place, { registry with
      entries := registry.entries.push entry
      places := registry.places.insert entry.key place })

def noteFirst (registry : IndexedRegistry) (entry : RegistryEntry) (place : Nat) :
    IndexedRegistry :=
  { registry with firstPlaces := registry.firstPlaces.insertIfNew entry.nodeType.pack place }

def bind? (registry : IndexedRegistry) (entry : RegistryEntry) : Option IndexedRegistry := do
  let (place, registry) ← registry.put? entry
  return registry.noteFirst entry place

def register? (registry : IndexedRegistry) (factory : Option Factory)
    (mapping : List (String × NodeType)) : Option IndexedRegistry :=
  mapping.foldlM (fun registry (name, nodeType) => registry.bind? ⟨name, nodeType, factory⟩)
    registry

def size (registry : IndexedRegistry) : Nat :=
  registry.entries.size

def entry? (registry : IndexedRegistry) (name : String) : Option RegistryEntry :=
  registry.places[Text.asciiLowerCase name]?.bind fun place => registry.entries[place]?

def firstFor? (registry : IndexedRegistry) (nodeType : NodeType) : Option RegistryEntry :=
  registry.firstPlaces[nodeType.pack]?.bind fun place => registry.entries[place]?

def sorted (registry : IndexedRegistry) : List RegistryEntry :=
  registry.places.values.filterMap fun place => registry.entries[place]?

end IndexedRegistry
end RecordGraph
