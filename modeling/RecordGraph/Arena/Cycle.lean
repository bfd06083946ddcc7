import RecordGraph.Arena.Basic

/-!
# Cycles

Nodes on a cycle keep each other alive. A search in depth, child by child, finds a node that is
below itself: the first child met that stands on the path to it. Every edge is taken once and every
node is left once, which bounds the rounds of the search.
-/

namespace RecordGraph.Arena

structure Branch where
  node : NodeId
  rest : List NodeId

structure Search where
  path : List Branch
  onPath : Array Bool
  left : Array Bool

namespace Search

def enter (search : Search) (arena : Arena) (id : NodeId) : Search :=
  { search with
    path := ⟨id, (arena.children id).toList⟩ :: search.path
    onPath := search.onPath.setIfInBounds id.index true }

end Search

def searchCycle (arena : Arena) : Nat → Search → Option NodeId
  | 0, _ => none
  | rounds + 1, search =>
    match search.path with
    | [] => none
    | ⟨id, []⟩ :: path =>
      searchCycle arena rounds
        { path
          onPath := search.onPath.setIfInBounds id.index false
          left := search.left.setIfInBounds id.index true }
    | ⟨id, child :: rest⟩ :: path =>
      let search := { search with path := ⟨id, rest⟩ :: path }
      if arena.contains child then
        if search.onPath.getD child.index false then some child
        else if search.left.getD child.index false then searchCycle arena rounds search
        else searchCycle arena rounds (search.enter arena child)
      else searchCycle arena rounds search

def searchRounds (arena : Arena) : Nat :=
  arena.slots.foldl
    (fun rounds slot =>
      match slot.state with
      | .live node _ => rounds + node.childArray.size + 1
      | _ => rounds)
    1

def findCycle (arena : Arena) (root : NodeId) : Option NodeId :=
  if arena.contains root then
    let unmarked := Array.replicate arena.slots.size false
    searchCycle arena arena.searchRounds (Search.enter ⟨[], unmarked, unmarked⟩ arena root)
  else none

end RecordGraph.Arena
