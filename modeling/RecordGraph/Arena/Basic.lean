import RecordGraph.Node

/-!
# Arenas

An arena owns all nodes and the table of attribute names. Nodes stand in slots; a slot that is
emptied moves to its next generation, so an id of an old generation never becomes valid again, and
slots are used again last emptied first.

Each live node has a count of its owners: the places in child lists that hold it and the bindings
and callers that hold it from outside.
-/

namespace RecordGraph

inductive SlotState where
  | live (node : Node) (owners : Nat)
  | dying (node : Node)
  | free
deriving DecidableEq

structure Slot where
  generation : Nat
  state : SlotState
deriving DecidableEq

instance : Inhabited Slot := ⟨⟨0, .free⟩⟩

structure Arena where
  slots : Array Slot
  free : List Nat
  live : Nat
  names : NameTable
deriving DecidableEq

namespace Slot

def live? (slot : Slot) (generation : Nat) : Option (Node × Nat) :=
  match slot.state with
  | .live node owners => if slot.generation = generation then some (node, owners) else none
  | _ => none

def updateLive (generation : Nat) (change : Node → Nat → SlotState) : Slot → Slot
  | ⟨current, .live node owners⟩ =>
    if current = generation then ⟨current, change node owners⟩ else ⟨current, .live node owners⟩
  | slot => slot

end Slot

namespace Arena

def empty : Arena := ⟨#[], [], 0, .attributes⟩

instance : Inhabited Arena := ⟨empty⟩

/-! ## Reading -/

def live? (arena : Arena) (id : NodeId) : Option (Node × Nat) :=
  arena.slots[id.index]?.bind (·.live? id.generation)

def node? (arena : Arena) (id : NodeId) : Option Node :=
  (arena.live? id).map (·.1)

def owners? (arena : Arena) (id : NodeId) : Option Nat :=
  (arena.live? id).map (·.2)

def contains (arena : Arena) (id : NodeId) : Bool :=
  (arena.live? id).isSome

def ownerCount (arena : Arena) (id : NodeId) : Nat :=
  (arena.owners? id).getD 0

def name (arena : Arena) (id : NodeId) : String :=
  ((arena.node? id).map (·.name)).getD ""

def kind? (arena : Arena) (id : NodeId) : Option Kind :=
  (arena.node? id).map (·.kind)

def children (arena : Arena) (id : NodeId) : Array NodeId :=
  ((arena.node? id).map (·.childArray)).getD #[]

def child? (arena : Arena) (id : NodeId) (index : Nat) : Option NodeId :=
  (arena.children id)[index]?

def childCount (arena : Arena) (id : NodeId) : Nat :=
  (arena.children id).size

def hasChildList (arena : Arena) (id : NodeId) : Bool :=
  ((arena.node? id).map (·.children.isSome)).getD false

def attrById? (arena : Arena) (id : NodeId) (attr : AttrId) : Option Value :=
  (arena.node? id).bind (·.attr? attr)

def attr? (arena : Arena) (id : NodeId) (name : String) : Option Value :=
  (arena.names.query name).bind (arena.attrById? id)

def attrIfNamed? (arena : Arena) (id : NodeId) (nodeName name : String) : Option Value :=
  match arena.node? id with
  | some node => if node.name = nodeName then arena.attr? id name else none
  | none => none

/-! ## Changing one node -/

def updateLive (arena : Arena) (id : NodeId) (change : Node → Nat → SlotState) : Arena :=
  match arena with
  | ⟨slots, free, live, names⟩ =>
    ⟨slots.modify id.index (Slot.updateLive id.generation change), free, live, names⟩

def modifyNode (arena : Arena) (id : NodeId) (change : Node → Node) : Arena :=
  arena.updateLive id fun node owners => .live (change node) owners

def countOwners (arena : Arena) (id : NodeId) (change : Nat → Nat) : Arena :=
  arena.updateLive id fun node owners => .live node (change owners)

def retain (arena : Arena) (id : NodeId) : Arena :=
  arena.countOwners id (· + 1)

def ensureChildren (arena : Arena) (id : NodeId) : Arena :=
  arena.modifyNode id (·.ensureChildren)

def setAttr (arena : Arena) (id : NodeId) (name : String) (value : Value) : Arena :=
  if arena.contains id then
    match arena.names.intern name with
    | .ok (attr, names) => { arena with names }.modifyNode id (·.setAttr attr value)
    | .error _ => arena
  else arena

/-- Remove an attribute of a live node and give its value. With `create` a missing attribute list
comes into being, though it stays empty. -/
def eraseAttr (arena : Arena) (id : NodeId) (name : String) (create : Bool) :
    Option Value × Arena :=
  match arena.names.query name with
  | some attr => (arena.attrById? id attr, arena.modifyNode id (·.eraseAttr attr create))
  | none => (none, if create then arena.modifyNode id (·.ensureAttrs) else arena)

def takeAttrs (arena : Arena) (id : NodeId) : Option AttrList × Arena :=
  ((arena.node? id).bind (·.attrs),
    arena.modifyNode id fun node => { node with attrs := none })

def internAttrs (arena : Arena) (attrs : List (String × Value)) : AttrList × Arena :=
  match arena with
  | ⟨slots, free, live, names⟩ =>
    let (list, names) := names.internAttrs attrs
    (list, ⟨slots, free, live, names⟩)

/-! ## New nodes -/

def adopt (arena : Arena) (node : Node) : Node × Arena :=
  match node.children with
  | none => (node, arena)
  | some children =>
    let children := children.filter arena.contains
    ({ node with children := some children }, children.foldl retain arena)

def place (arena : Arena) (node : Node) : NodeId × Arena :=
  match arena with
  | ⟨slots, [], live, names⟩ =>
    (⟨slots.size, 0⟩, ⟨slots.push ⟨0, .live node 0⟩, [], live + 1, names⟩)
  | ⟨slots, index :: free, live, names⟩ =>
    let generation := (slots[index]?.map (·.generation)).getD 0
    (⟨index, generation⟩,
      ⟨slots.modify index fun slot => { slot with state := .live node 0 }, free, live + 1, names⟩)

def alloc (arena : Arena) (node : Node) : NodeId × Arena :=
  let (node, arena) := arena.adopt node
  arena.place node

def allocKind (arena : Arena) (name : String) (kind : Kind) : NodeId × Arena :=
  arena.alloc (.ofKind name kind)

end Arena
end RecordGraph
