import RecordGraph.Proofs.Arena.Orderly

/-!
# Marks on nodes

Marks are left for whoever looks at a document later. Nothing that is read of an arena depends on
them, so two arenas that differ in marks alone are read alike.
-/

namespace RecordGraph

namespace Node

def unmarked (node : Node) : Node :=
  { node with status := .good }

def failing (failed : Bool) (node : Node) : Node :=
  { node with status := ⟨failed, node.status.bad⟩ }

theorem mark_failed (node : Node) : node.mark ⟨true, false⟩ = node.failing true := by
  simp [mark, failing, Status.join]

theorem unmark_failed (node : Node) : node.unmark ⟨true, false⟩ = node.failing false := by
  simp [unmark, failing, Status.without]

end Node

namespace Arena

/-! ## Changes of two nodes -/

section

variable (arena : Arena)

theorem modifyNode_modifyNode (id : NodeId) (first second : Node → Node) :
    (arena.modifyNode id first).modifyNode id second = arena.modifyNode id (second ∘ first) := by
  cases found : arena.live? id with
  | none => simp only [modifyNode_of_stale found]
  | some content =>
    have slot := live?_eq_some_iff.mp found
    have changed : (arena.putSlot id.index ⟨id.generation, .live (first content.1) content.2⟩).live?
        id = some (first content.1, content.2) :=
      live?_eq_some_iff.mpr (putSlot_slots_same slot _)
    rw [modifyNode_of_live found, modifyNode_of_live changed, modifyNode_of_live found,
      putSlot_putSlot]
    rfl

theorem modifyNode_comm {id other : NodeId} (different : id ≠ other) (first second : Node → Node) :
    (arena.modifyNode id first).modifyNode other second =
      (arena.modifyNode other second).modifyNode id first := by
  cases found : arena.live? id with
  | none =>
    have stale : (arena.modifyNode other second).live? id = none := by
      rw [live?_modifyNode, if_neg different, found]
    rw [modifyNode_of_stale found, modifyNode_of_stale stale]
  | some content =>
    have kept : (arena.modifyNode other second).live? id = some content := by
      rw [live?_modifyNode, if_neg different, found]
    cases foundOther : arena.live? other with
    | none =>
      have stale : (arena.modifyNode id first).live? other = none := by
        rw [live?_modifyNode, if_neg different.symm, foundOther]
      rw [modifyNode_of_stale stale, modifyNode_of_stale foundOther]
    | some contentOther =>
      have keptOther : (arena.modifyNode id first).live? other = some contentOther := by
        rw [live?_modifyNode, if_neg different.symm, foundOther]
      have apart : id.index ≠ other.index := fun same => different <|
        eq_of_index_eq (contains_iff.mpr ⟨_, _, found⟩) (contains_iff.mpr ⟨_, _, foundOther⟩) same
      rw [modifyNode_of_live keptOther, modifyNode_of_live kept, modifyNode_of_live found,
        modifyNode_of_live foundOther]
      simp only [putSlot, Array.setIfInBounds_comm _ _ apart]

end

/-! ## Arenas that differ in marks -/

structure Remarked (before after : Arena) : Prop where
  names : after.names = before.names
  nodes : ∀ id, (after.node? id).map Node.unmarked = (before.node? id).map Node.unmarked

theorem Remarked.refl (arena : Arena) : arena.Remarked arena :=
  ⟨rfl, fun _ => rfl⟩

theorem remarked_failing (arena : Arena) (id : NodeId) (failed : Bool) :
    arena.Remarked (arena.modifyNode id (Node.failing failed)) where
  names := rfl
  nodes other := by
    rw [node?, node?, live?_modifyNode]
    split
    · rename_i same
      subst same
      simp [Function.comp_def, Node.unmarked, Node.failing]
    · rfl

namespace Remarked

variable {before after : Arena} (remarked : before.Remarked after)
include remarked

theorem map_node? (read : Node → α) (blind : ∀ node, read node.unmarked = read node)
    (id : NodeId) : (after.node? id).map read = (before.node? id).map read := by
  have same := congrArg (Option.map read) (remarked.nodes id)
  simpa only [Option.map_map, Function.comp_def, blind] using same

theorem bind_node? (read : Node → Option α) (blind : ∀ node, read node.unmarked = read node)
    (id : NodeId) : (after.node? id).bind read = (before.node? id).bind read := by
  have same := congrArg (Option.bind · read) (remarked.nodes id)
  simpa only [Option.bind_map, Function.comp_def, blind] using same

theorem name (id : NodeId) : after.name id = before.name id :=
  congrArg (·.getD "") (remarked.map_node? (·.name) (fun _ => rfl) id)

theorem kind? (id : NodeId) : after.kind? id = before.kind? id :=
  remarked.map_node? Node.kind (fun _ => rfl) id

theorem children (id : NodeId) : after.children id = before.children id :=
  congrArg (·.getD #[]) (remarked.map_node? Node.childArray (fun _ => rfl) id)

theorem child? (id : NodeId) (index : Nat) : after.child? id index = before.child? id index := by
  rw [Arena.child?, remarked.children, Arena.child?]

theorem hasChildList (id : NodeId) : after.hasChildList id = before.hasChildList id :=
  congrArg (·.getD false)
    (remarked.map_node? (·.children.isSome) (fun _ => rfl) id)

theorem attrs (id : NodeId) : (after.node? id).bind (·.attrs) = (before.node? id).bind (·.attrs) :=
  remarked.bind_node? (·.attrs) (fun _ => rfl) id

theorem attrById? (id : NodeId) (attr : AttrId) :
    after.attrById? id attr = before.attrById? id attr :=
  remarked.bind_node? (·.attr? attr) (fun _ => rfl) id

end Remarked
end Arena
end RecordGraph
