import RecordGraph.Proofs.SymbolTable.Upholding
import RecordGraph.Proofs.Walk.Accounts

/-!
# Walks make no cycles

The only links that a walk adds are those to the leaves that are built for results of expressions.
What is claimed apart from the bindings of its table stays.
-/

namespace RecordGraph.Walk

open RecordGraph.Arena (Settles)

variable {others : NodeId → Nat} {registry : Option Registry} {before : Arena}

section

variable {store after : Store} {limit : DepthLimit}
  (sound : Sound others registry store.table store.arena) (acyclic : store.arena.Acyclic)
include sound acyclic

theorem upholds_bindCounter (loop : NodeId) (counter : Int64) :
    Upholds others store.arena (store.bindCounter loop counter).arena := by
  rcases store with ⟨arena, table, failures⟩
  have settles : Settles [] arena (arena.modifyNode loop (·.setAttr .value (.int counter))) :=
    .childless arena loop fun _ => rfl
  have stored : Upholds others arena
      (arena.modifyNode loop (·.setAttr .value (.int counter))) :=
    .childless sound acyclic loop fun _ => rfl
  cases table with
  | none => exact stored
  | some table => exact stored.trans (upholds_define (sound.settle settles) stored.acyclic _ loop)

theorem upholds_steps (direct : ∀ own, registry = some own → own.Direct) {frames later : List Frame}
    (steps : Steps limit store frames after later) : Upholds others store.arena after.arena := by
  cases steps with
  | rested | passed | left => exact .refl acyclic
  | @entered _ _ child start _ new =>
    have noted : Sound others registry (store.note new).table (store.note new).arena := sound
    exact upholds_bindCounter noted acyclic child start
  | unselected child | @selected _ _ child =>
    exact Evaluation.upholds_evaluate sound acyclic direct child
  | turned => exact upholds_bindCounter sound acyclic _ _

end

variable {walk : Walk} (direct : ∀ own, registry = some own → own.Direct)
include direct

theorem upholds_settle {rounds : Nat} {settled : Walk} (keeps : Keeps others registry before walk)
    (acyclic : walk.arena.Acyclic) (ran : walk.settle rounds = some settled) :
    Upholds others walk.arena settled.arena := by
  induction rounds generalizing walk with
  | zero => cases ran
  | succ rounds induction =>
    have stepped := keeps.step
    have upholds : Upholds others walk.arena walk.step.2.arena := by
      rcases walk.step_cases with ⟨after, later, same, steps⟩
      have sound : Sound others registry walk.store.table walk.store.arena := keeps.state.sound
      rw [same]
      exact upholds_steps sound acyclic direct steps
    unfold settle at ran
    split at ran
    · rename_i same
      rw [same] at stepped upholds
      exact upholds.trans (induction stepped upholds.acyclic ran)
    · rename_i same
      rw [same] at upholds
      cases ran
      exact upholds

theorem upholds_next {rounds : Nat} {given : Option NodeId} {later : Walk}
    (keeps : Keeps others registry before walk) (acyclic : walk.arena.Acyclic)
    (ran : walk.next rounds = some (given, later)) :
    Upholds others walk.arena later.arena := by
  rw [next_eq] at ran
  rcases Option.map_eq_some_iff.mp ran with ⟨settled, found, same⟩
  have upholds := upholds_settle direct keeps acyclic found
  split at same
  · cases same
    exact upholds
  · cases same
    exact upholds

theorem fold_upholds {α : Type} {rounds nodes : Nat} {visit : α → Walk → NodeId → α}
    {start collected : α} {later : Walk} (keeps : Keeps others registry before walk)
    (acyclic : walk.arena.Acyclic)
    (ran : walk.fold rounds visit nodes start = some (collected, later)) :
    Keeps others registry before later ∧ Upholds others walk.arena later.arena := by
  induction nodes generalizing walk start with
  | zero => cases ran
  | succ nodes induction =>
    unfold fold at ran
    split at ran
    · cases ran
    · rename_i found
      cases ran
      exact ⟨keeps.next found, upholds_next direct keeps acyclic found⟩
    · rename_i found
      have upholds := upholds_next direct keeps acyclic found
      rcases induction (keeps.next found) upholds.acyclic ran with ⟨kept, rest⟩
      exact ⟨kept, upholds.trans rest⟩

end RecordGraph.Walk
