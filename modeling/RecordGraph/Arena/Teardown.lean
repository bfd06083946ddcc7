import RecordGraph.Arena.Basic

/-!
# Teardown

A node dies with its last owner and then gives up its own children. The nodes that are to be freed
wait in a work list, last in first out, so a teardown needs no more room for a deep structure than
for a wide one. Each round empties one slot, hence there are at most as many rounds as slots.
-/

namespace RecordGraph.Arena

def condemn (arena : Arena) (id : NodeId) : Arena :=
  arena.updateLive id fun node _ => .dying node

def dyingChildren? (arena : Arena) (id : NodeId) : Option (Array NodeId) :=
  match arena.slots[id.index]? with
  | some ⟨generation, .dying node⟩ =>
    if generation = id.generation then some node.childArray else none
  | _ => none

def vacate (arena : Arena) (id : NodeId) : Arena :=
  match arena with
  | ⟨slots, free, live, names⟩ =>
    ⟨slots.modify id.index fun slot => ⟨slot.generation + 1, .free⟩, id.index :: free, live - 1,
      names⟩

/-- Take an owner from a child of a node that was freed. With the last one the child joins the work
list; a child that is dying already or stale is passed over. -/
def releaseChild (state : Arena × List NodeId) (child : NodeId) : Arena × List NodeId :=
  match state with
  | (arena, work) =>
    match arena.owners? child with
    | none => (arena, work)
    | some owners =>
      if owners ≤ 1 then (arena.condemn child, child :: work)
      else (arena.countOwners child (· - 1), work)

def teardown : Nat → List NodeId → Arena → Arena
  | 0, _, arena => arena
  | _ + 1, [], arena => arena
  | rounds + 1, id :: work, arena =>
    match arena.dyingChildren? id with
    | none => teardown rounds work arena
    | some children =>
      let (arena, work) := children.foldl releaseChild (arena.vacate id, work)
      teardown rounds work arena

def destroy (arena : Arena) (id : NodeId) : Arena :=
  teardown arena.slots.size [id] (arena.condemn id)

/-- Take an owner from a live node and free it if none is left. A node without owners is freed at
once, and a stale id is passed over. -/
def release (arena : Arena) (id : NodeId) : Arena :=
  match arena.owners? id with
  | none => arena
  | some owners =>
    if owners ≤ 1 then arena.destroy id else arena.countOwners id (· - 1)

def isUnowned (arena : Arena) (id : NodeId) : Bool :=
  arena.owners? id == some 0

def releaseIfUnowned (arena : Arena) (id : NodeId) : Arena :=
  if arena.isUnowned id then arena.destroy id else arena

end RecordGraph.Arena
