import RecordGraph.Arena.Cells
import RecordGraph.Proofs.Arena.Edits
import RecordGraph.Proofs.Arena.History

/-!
# How far counts go

An operation adds owners to the children of the node it stores or to the one node it links or
retains, and never more of them than those. So no count comes to the last one as long as fewer
owners than that were added in all.
-/

namespace RecordGraph

def Operation.owners : Operation → Nat
  | .alloc node => node.childArray.size
  | .retain _ | .pushChild _ _ | .insertChild _ _ _ | .setChild _ _ _ => 1
  | .release _ | .releaseIfUnowned _ | .ensureChildren _ | .removeChild _ _ | .clearChildren _ => 0

def Action.owners : Action → Nat
  | .perform operation => operation.owners
  | .setAttr _ _ _ | .edit _ _ | .editNames _ => 0

namespace Arena

def Ample (arena : Arena) : Prop :=
  ∀ id, arena.ownerCount id < Cells.lastCount

def Adds (added : Nat) (before after : Arena) : Prop :=
  ∀ id, after.ownerCount id ≤ before.ownerCount id + added

theorem ownerCount_retainAll (nodes : List NodeId) (arena : Arena) (id : NodeId) :
    (nodes.foldl retain arena).ownerCount id =
      arena.ownerCount id + if arena.contains id then nodes.count id else 0 := by
  rw [ownerCount, owners?, live?_retainAll, ownerCount, owners?, contains]
  cases arena.live? id <;> simp

namespace Adds

variable {first second third : Arena} {added more : Nat}

theorem refl (arena : Arena) : Adds 0 arena arena := fun _ => le_rfl

theorem trans (left : Adds added first second) (right : Adds more second third) :
    Adds (added + more) first third := fun id => by
  have before := left id
  have after := right id
  omega

theorem mono (adds : Adds added first second) (le : added ≤ more) : Adds more first second :=
  fun id => (adds id).trans (Nat.add_le_add_left le _)

theorem of_wanes (wanes : first.Wanes second) : Adds 0 first second := fun id => by
  cases found : second.live? id with
  | none =>
    rw [ownerCount_of_stale found]
    exact Nat.zero_le _
  | some content =>
    rcases wanes.live found with ⟨earlier, foundEarlier, le, -⟩
    rw [ownerCount_of_live found, ownerCount_of_live foundEarlier]
    exact le

theorem modifyNode (arena : Arena) (id : NodeId) (change : Node → Node) :
    Adds 0 arena (arena.modifyNode id change) := fun other => by
  rw [ownerCount, owners?, live?_modifyNode, ownerCount, owners?]
  split
  · rename_i same
    subst same
    cases arena.live? other <;> simp
  · exact le_rfl

theorem retainAll (nodes : List NodeId) (arena : Arena) :
    Adds nodes.length arena (nodes.foldl Arena.retain arena) := fun id => by
  rw [ownerCount_retainAll]
  split
  · exact Nat.add_le_add_left List.count_le_length _
  · exact Nat.le_add_right _ _

theorem retain (arena : Arena) (id : NodeId) : Adds 1 arena (arena.retain id) :=
  retainAll [id] arena

theorem link (arena : Arena) (parent child : NodeId) (change : Node → Node) :
    Adds 1 arena ((arena.retain child).modifyNode parent change) :=
  (retain arena child).trans (modifyNode _ parent change)

theorem pushChild (arena : Arena) (parent child : NodeId) :
    Adds 1 arena (arena.pushChild parent child).2 := by
  unfold Arena.pushChild
  split
  · exact link arena parent child _
  · exact (refl arena).mono (Nat.zero_le 1)

theorem insertChild (arena : Arena) (parent : NodeId) (index : Nat) (child : NodeId) :
    Adds 1 arena (arena.insertChild parent index child).2 := by
  unfold Arena.insertChild
  split
  · exact link arena parent child _
  · exact (refl arena).mono (Nat.zero_le 1)

theorem setChild (arena : Arena) (parent : NodeId) (index : Nat) (child : NodeId) :
    Adds 1 arena (arena.setChild parent index child).2 := by
  rcases setChild_cases arena parent index child with same | ⟨-, same⟩ | ⟨old, -, -, same⟩
  · rw [same]
    exact (refl arena).mono (Nat.zero_le 1)
  · rw [same]
    exact pushChild arena parent child
  · rw [same]
    exact (link arena parent child _).trans (of_wanes (wanes_release _ old))

theorem removeChild (arena : Arena) (parent : NodeId) (index : Nat) :
    Adds 0 arena (arena.removeChild parent index).2 := by
  unfold Arena.removeChild
  split
  · exact refl arena
  · exact (modifyNode arena parent _).trans (of_wanes (wanes_release _ _))

theorem clearChildren (arena : Arena) (parent : NodeId) :
    Adds 0 arena (arena.clearChildren parent) := by
  rw [Arena.clearChildren, ← Array.foldl_toList]
  exact (modifyNode arena parent _).trans (of_wanes (wanes_releaseAll _ _))

end Adds

variable {arena : Arena}

/-- A new node has no owners, and the others have as many as when it took its children. -/
theorem ownerCount_alloc (orderly : arena.Orderly) (node : Node) (id : NodeId) :
    (arena.alloc node).2.ownerCount id = (arena.adopt node).2.ownerCount id := by
  have placed := placed_place (orderly.adopt node).wellFormed (arena.adopt node).1
  rw [alloc]
  by_cases new : id = ((arena.adopt node).2.place (arena.adopt node).1).1
  · rw [new, ownerCount_of_live placed.live?_same, ownerCount_of_stale placed.live?_before]
  · rw [ownerCount, owners?, placed.live?_other new, ownerCount, owners?]

theorem Adds.alloc (orderly : arena.Orderly) (node : Node) :
    Adds node.childArray.size arena (arena.alloc node).2 := by
  have adopted := Adds.retainAll (node.childArray.filter arena.contains).toList arena
  rw [← adopt_eq_retainAll, Array.length_toList] at adopted
  intro id
  rw [ownerCount_alloc orderly]
  exact adopted.mono Array.size_filter_le id

end Arena

namespace History

variable {history : History}

def Ample : History → List Action → Prop
  | history, [] => history.arena.Ample
  | history, action :: actions => history.arena.Ample ∧ (history.apply action).Ample actions

theorem Ample.here {actions : List Action} (ample : history.Ample actions) :
    history.arena.Ample := by
  cases actions with
  | nil => exact ample
  | cons action actions => exact ample.1

theorem adds_apply (orderly : history.arena.Orderly) (action : Action) :
    Arena.Adds action.owners history.arena (history.apply action).arena := by
  cases action with
  | perform operation =>
    cases operation with
    | alloc node => exact .alloc orderly node
    | retain id => exact .retain _ id
    | release id => exact .of_wanes (Arena.wanes_release _ id)
    | releaseIfUnowned id => exact .of_wanes (Arena.wanes_releaseIfUnowned _ id)
    | ensureChildren id => exact .modifyNode _ id _
    | pushChild parent child => exact .pushChild _ parent child
    | insertChild parent index child => exact .insertChild _ parent index child
    | setChild parent index child => exact .setChild _ parent index child
    | removeChild parent index => exact .removeChild _ parent index
    | clearChildren parent => exact .clearChildren _ parent
  | setAttr id name value =>
    intro other
    simp only [apply, Arena.setAttr]
    split
    · split
      · exact Arena.Adds.modifyNode _ id _ other
      · exact le_rfl
    · exact le_rfl
  | edit id change => exact .modifyNode _ id change
  | editNames change => exact fun _ => le_rfl

theorem ample_of_few {bound : Nat} (faithful : history.Faithful)
    (counted : ∀ id, history.arena.ownerCount id ≤ bound) {actions : List Action}
    (few : bound + (actions.map Action.owners).sum < Cells.lastCount) :
    history.Ample actions := by
  induction actions generalizing history bound with
  | nil => exact fun id => Nat.lt_of_le_of_lt (counted id) few
  | cons action actions induction =>
    rw [List.map_cons, List.sum_cons, ← Nat.add_assoc] at few
    refine ⟨fun id => ?_, induction (faithful.apply action) (fun id => ?_) few⟩
    · have before := counted id
      omega
    · exact (adds_apply faithful.orderly action id).trans (Nat.add_le_add_right (counted id) _)

theorem ample_initial {actions : List Action}
    (few : (actions.map Action.owners).sum < Cells.lastCount) : initial.Ample actions := by
  refine @ample_of_few initial 0 faithful_initial (fun id => ?_) actions (by rwa [Nat.zero_add])
  rw [Arena.ownerCount_of_stale (by simp [initial, Arena.live?, Arena.empty])]

end History
end RecordGraph
