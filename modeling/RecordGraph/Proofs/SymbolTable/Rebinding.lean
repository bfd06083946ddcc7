import RecordGraph.Proofs.SymbolTable.Bindings

/-!
# Bindings that are exchanged

A key that is bound anew gives up its old node, which may go, and with it what it alone owned. Apart
from that nothing happens to the nodes: those that are still there are the same.
-/

namespace RecordGraph

/-! ## Arenas that become thinner -/

namespace Arena

structure Thins (before after : Arena) : Prop where
  node : ∀ {id node}, after.node? id = some node → ∃ earlier, before.node? id = some earlier ∧
    earlier.name = node.name ∧ earlier.kind = node.kind ∧ earlier.childArray = node.childArray

namespace Thins

variable {before middle after : Arena}

theorem of_same (same : ∀ {id node}, after.node? id = some node → before.node? id = some node) :
    before.Thins after :=
  ⟨fun found => ⟨_, same found, rfl, rfl, rfl⟩⟩

theorem refl (arena : Arena) : arena.Thins arena :=
  of_same id

theorem trans (left : before.Thins middle) (right : middle.Thins after) : before.Thins after where
  node found := by
    rcases right.node found with ⟨between, foundBetween, name, kind, children⟩
    rcases left.node foundBetween with ⟨earlier, foundEarlier, nameToo, kindToo, childrenToo⟩
    exact ⟨earlier, foundEarlier, nameToo.trans name, kindToo.trans kind,
      childrenToo.trans children⟩

theorem modifyNode (arena : Arena) (id : NodeId) {change : Node → Node}
    (same : ∀ node, (change node).name = node.name ∧ (change node).kind = node.kind ∧
      (change node).childArray = node.childArray) :
    arena.Thins (arena.modifyNode id change) where
  node {other node} found := by
    rw [node?, live?_modifyNode] at found
    split at found
    · rename_i equal
      subst equal
      rw [Option.map_map] at found
      rcases Option.map_eq_some_iff.mp found with ⟨content, live, rfl⟩
      rcases same content.1 with ⟨name, kind, children⟩
      exact ⟨content.1, by rw [node?, live, Option.map_some], name.symm, kind.symm, children.symm⟩
    · exact ⟨node, found, rfl, rfl, rfl⟩

variable (thins : before.Thins after)
include thins

theorem name {id : NodeId} (live : after.contains id = true) : after.name id = before.name id := by
  rcases contains_iff.mp live with ⟨node, owners, standing⟩
  have found : after.node? id = some node := by rw [node?, standing, Option.map_some]
  rcases thins.node found with ⟨earlier, known, same, -⟩
  rw [Arena.name, Arena.name, found, known, Option.map_some, Option.map_some, same]

theorem kind? {id : NodeId} {kind : Kind} (known : after.kind? id = some kind) :
    before.kind? id = some kind := by
  rcases Option.map_eq_some_iff.mp known with ⟨node, found, rfl⟩
  rcases thins.node found with ⟨earlier, foundEarlier, -, same, -⟩
  rw [Arena.kind?, foundEarlier, Option.map_some, same]

theorem mem_children {parent child : NodeId} (member : child ∈ after.children parent) :
    child ∈ before.children parent := by
  cases found : after.node? parent with
  | none => simp [children, found] at member
  | some node =>
    rcases thins.node found with ⟨earlier, foundEarlier, -, -, same⟩
    rwa [children_of_node? found, ← same, ← children_of_node? foundEarlier] at member

end Thins
end Arena

/-! ## Bindings that are exchanged -/

namespace SymbolTable

theorem node?_of_define {table : SymbolTable} {arena : Arena} {key : String} {node id : NodeId}
    {content : Node} (found : (table.define arena key node).2.node? id = some content) :
    arena.node? id = some content := by
  unfold define at found
  simp only at found
  split at found
  · exact found
  · split at found
    · rename_i old _
      rcases Option.map_eq_some_iff.mp found with ⟨⟨kept, owners⟩, live, rfl⟩
      rcases (Arena.wanes_release (arena.retain node) old).live live with ⟨count, earlier, -⟩
      rw [← Arena.node?_retain arena node, Arena.node?, earlier, Option.map_some]
    · rwa [Arena.node?_retain] at found

theorem thins_define (table : SymbolTable) (arena : Arena) (key : String) (node : NodeId) :
    arena.Thins (table.define arena key node).2 :=
  .of_same node?_of_define

theorem node?_define {table : SymbolTable} {arena : Arena} {key : String} {node id : NodeId}
    (live : (table.define arena key node).2.contains id = true) :
    (table.define arena key node).2.node? id = arena.node? id := by
  rcases Arena.contains_iff.mp live with ⟨content, owners, standing⟩
  have found : (table.define arena key node).2.node? id = some content := by
    rw [Arena.node?, standing, Option.map_some]
  rw [found, node?_of_define found]

end SymbolTable
end RecordGraph
