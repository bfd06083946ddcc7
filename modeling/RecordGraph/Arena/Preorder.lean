import RecordGraph.Arena.Basic
import Std.Data.ExtTreeSet

/-!
# Preorder

The nodes below a node with their depths, each before its children. A node that is met again is
listed without what is below it, so that the list is finite for every structure.
-/

namespace RecordGraph.Arena

structure Visit where
  depth : Nat
  node : NodeId
deriving DecidableEq, Repr

/-- Take nodes from those that wait, the next one first, and list them; `seen` holds the slots of
the live nodes that were listed. Each round lists one node, and every place in a child list waits
once at most. -/
def listVisits (arena : Arena) :
    Nat → List Visit → Std.ExtTreeSet Nat → Array Visit → Array Visit
  | 0, _, _, listed => listed
  | _ + 1, [], _, listed => listed
  | rounds + 1, visit :: waiting, seen, listed =>
    let listed := listed.push visit
    if !arena.contains visit.node || seen.contains visit.node.index then
      listVisits arena rounds waiting seen listed
    else
      let below := (arena.children visit.node).toList.map (Visit.mk (visit.depth + 1))
      listVisits arena rounds (below ++ waiting) (seen.insert visit.node.index) listed

def places (arena : Arena) : Nat :=
  arena.slots.foldl
    (fun places slot =>
      match slot.state with
      | .live node _ => places + node.childArray.size
      | _ => places)
    1

def preorder (arena : Arena) (root : NodeId) : List Visit :=
  (arena.listVisits arena.places [⟨0, root⟩] ∅ #[]).toList

end RecordGraph.Arena
