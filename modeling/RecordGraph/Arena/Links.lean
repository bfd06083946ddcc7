import RecordGraph.Arena.Teardown

/-!
# Child lists

Every place in a child list is an owner of the child that stands there. An edit takes a new child
before it gives up an old one, and a child that is not shareable is only linked while it has no
owner. Each edit says whether it was made; a refused edit changes nothing.
-/

namespace RecordGraph.Arena

def canLink (arena : Arena) (child : NodeId) : Bool :=
  match arena.live? child with
  | some (node, owners) => owners == 0 || node.shareable
  | none => false

def pushChild (arena : Arena) (parent child : NodeId) : Bool × Arena :=
  if arena.contains parent && arena.canLink child then
    (true, (arena.retain child).modifyNode parent (·.push child))
  else (false, arena)

def insertChild (arena : Arena) (parent : NodeId) (index : Nat) (child : NodeId) : Bool × Arena :=
  if arena.contains parent && arena.canLink child then
    (true, (arena.retain child).modifyNode parent fun node =>
      { node with children := some (node.childArray.insertIdxIfInBounds
          (min index node.childArray.size) child) })
  else (false, arena)

def setChild (arena : Arena) (parent : NodeId) (index : Nat) (child : NodeId) : Bool × Arena :=
  if !arena.contains parent then (false, arena)
  else
    match arena.child? parent index with
    | none =>
      if index = arena.childCount parent then arena.pushChild parent child else (false, arena)
    | some old =>
      if old = child then (true, arena)
      else if arena.canLink child then
        let arena := (arena.retain child).modifyNode parent fun node =>
          { node with children := node.children.map fun children =>
              children.setIfInBounds index child }
        (true, arena.release old)
      else (false, arena)

def removeChild (arena : Arena) (parent : NodeId) (index : Nat) : Bool × Arena :=
  match arena.child? parent index with
  | none => (false, arena)
  | some old =>
    let arena := arena.modifyNode parent fun node =>
      { node with children := node.children.map fun children =>
          children.eraseIdxIfInBounds index }
    (true, arena.release old)

def clearChildren (arena : Arena) (parent : NodeId) : Arena :=
  let old := arena.children parent
  let arena := arena.modifyNode parent fun node =>
    { node with children := node.children.map fun _ => #[] }
  old.foldl release arena

end RecordGraph.Arena
