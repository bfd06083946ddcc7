import RecordGraph.Proofs.SymbolTable.Storing
import RecordGraph.Proofs.Walk.Steps

/-!
# Walks keep the accounts

A walk binds the counters of its loops and stores the results of expressions. Each of its steps
leads from a sound state to a sound one, and the lists of its frames are nodes that were given out.
-/

namespace RecordGraph

open RecordGraph.Arena (Settles)

/-! ## The lists that are selected -/

namespace Evaluation

def Inquiry.Gives (inquiry : Inquiry α) (holds : α → Prop) : Prop :=
  ∀ {record result later}, inquiry record = .ok result later → holds result

namespace Inquiry

variable {holds : β → Prop}

theorem gives_bind {inquiry : Inquiry α} {next : α → Inquiry β}
    (rest : ∀ result, (next result).Gives holds) : (inquiry >>= next).Gives holds := by
  intro record result later ran
  change EStateM.bind inquiry next record = _ at ran
  unfold EStateM.bind at ran
  split at ran
  · exact rest _ ran
  · cases ran

theorem gives_pure {result : β} (given : holds result) : (pure result : Inquiry β).Gives holds := by
  rintro record _ later ⟨⟩
  exact given

theorem gives_throw (cause : EvaluationError) : (throw cause : Inquiry β).Gives holds :=
  nofun

theorem gives_throw_bind (cause : EvaluationError) (next : α → Inquiry β) :
    (throw cause >>= next).Gives holds :=
  nofun

end Inquiry

open Inquiry

variable {table : Option SymbolTable} {arena : Arena}

def IsList (arena : Arena) (selected : Option NodeId) : Prop :=
  ∀ list, selected = some list → arena.hasChildList list = true

def IsNear (arena : Arena) (node : NodeId) (selected : Option NodeId) : Prop :=
  ∀ list, selected = some list →
    arena.hasChildList list = true ∧ (list = node ∨ list ∈ arena.children node)

theorem eq_of_ownList {node list : NodeId} (same : ownList arena node = some list) :
    arena.hasChildList list = true ∧ list = node := by
  unfold ownList at same
  split at same
  · cases same
    exact ⟨by assumption, rfl⟩
  · cases same

theorem gives_guardList (node : NodeId) :
    (guardList table arena node).Gives (IsNear arena node) := by
  unfold guardList
  split
  · exact gives_throw_bind _ _
  · rename_i present
    simp only
    iterate 7 refine gives_bind fun _ => ?_
    split
    · exact gives_throw _
    · apply gives_pure
      intro list same
      split at same
      · cases same
        exact ⟨by simpa using present, .inl rfl⟩
      · cases same

theorem gives_switchList (node : NodeId) :
    (switchList table arena node).Gives (IsNear arena node) := by
  unfold switchList
  split
  · exact gives_throw_bind _ _
  · simp only
    iterate 3 refine gives_bind fun _ => ?_
    split
    · rename_i case found
      apply gives_pure
      intro list same
      rcases eq_of_ownList same with ⟨present, rfl⟩
      exact ⟨present, .inr (Array.mem_of_find?_eq_some found)⟩
    · exact gives_pure nofun

theorem isNear_reading {inquiry : Inquiry (Option NodeId)} {node : NodeId}
    (gives : inquiry.Gives (IsNear arena node)) :
    IsNear arena node (settle node (reading table arena inquiry) none).result := by
  unfold reading
  cases ran : inquiry.run [] with
  | ok result record => exact gives ran
  | error cause record => exact nofun

theorem isNear_evaluate (table : Option SymbolTable) (arena : Arena) (node : NodeId) :
    IsNear arena node (evaluate table arena node).result := by
  unfold evaluate
  split
  · exact nofun
  · unfold evaluateConditional
    split
    · exact isNear_reading (gives_guardList node)
    · exact isNear_reading (gives_switchList node)
    · intro list same
      rcases eq_of_ownList same with ⟨present, own⟩
      exact ⟨present, .inl own⟩

theorem isList_evaluate (table : Option SymbolTable) (arena : Arena) (node : NodeId) :
    IsList arena (evaluate table arena node).result :=
  fun list same => (isNear_evaluate table arena node list same).1

end Evaluation

/-! ## Steps -/

theorem Arena.issued_of_kind? {arena : Arena} {id : NodeId} {kind : Kind}
    (found : arena.kind? id = some kind) : arena.Issued id := by
  cases live : arena.live? id with
  | none => simp [kind?, node?, live] at found
  | some content => exact issued_of_live live

theorem Arena.issued_of_hasChildList {arena : Arena} {id : NodeId}
    (present : arena.hasChildList id = true) : arena.Issued id := by
  cases live : arena.live? id with
  | none => simp [hasChildList, node?, live] at present
  | some content => exact issued_of_live live

namespace Walk

variable {others : NodeId → Nat} {registry : Option Registry} {before : Arena} {walk : Walk}

def Grounded (walk : Walk) : Prop :=
  ∀ frame ∈ walk.frames.list, walk.arena.Issued frame.list

structure Keeps (others : NodeId → Nat) (registry : Option Registry) (before : Arena)
    (walk : Walk) : Prop where
  state : RecordGraph.Keeps others registry before walk.table walk.arena
  grounded : walk.Grounded

section

variable {store after : Store} {limit : DepthLimit}

theorem keeps_bindCounter
    (sound : Sound others registry store.table store.arena) {loop : NodeId}
    (issued : store.arena.Issued loop) (counter : Int64) :
    RecordGraph.Keeps others registry store.arena (store.bindCounter loop counter).table
      (store.bindCounter loop counter).arena := by
  rcases store with ⟨arena, table, failures⟩
  have stored : RecordGraph.Keeps others registry arena table
      (arena.modifyNode loop (·.setAttr .value (.int counter))) :=
    (RecordGraph.Keeps.refl sound).andThen (.childless arena loop fun _ => rfl)
  cases table with
  | none => exact stored
  | some table =>
    exact stored.trans (stored.sound.define _ (stored.follows.issued issued))

theorem keeps_steps {frames later : List Frame}
    (sound : Sound others registry store.table store.arena)
    (grounded : ∀ frame ∈ frames, store.arena.Issued frame.list)
    (steps : Steps limit store frames after later) :
    RecordGraph.Keeps others registry store.arena after.table after.arena := by
  cases steps with
  | rested | passed | left => exact .refl sound
  | entered new _ iterates =>
    have noted : Sound others registry (store.note new).table (store.note new).arena := sound
    exact keeps_bindCounter noted (Arena.issued_of_kind? iterates) _
  | unselected child | @selected _ _ child => exact Evaluation.keeps_evaluate sound child
  | turned => exact keeps_bindCounter sound (grounded _ List.mem_cons_self) _

theorem grounded_steps {frames later : List Frame}
    (follows : Arena.Follows [] store.arena after.arena)
    (grounded : ∀ frame ∈ frames, store.arena.Issued frame.list)
    (steps : Steps limit store frames after later) :
    ∀ frame ∈ later, after.arena.Issued frame.list := by
  have kept : ∀ frame ∈ frames, after.arena.Issued frame.list :=
    fun frame member => follows.issued (grounded frame member)
  cases steps with
  | rested => exact kept
  | passed | unselected | turned => exact List.forall_mem_cons.mpr (List.forall_mem_cons.mp kept)
  | entered new found iterates =>
    exact List.forall_mem_cons.mpr ⟨follows.issued (Arena.issued_of_kind? iterates), kept⟩
  | @selected _ _ child list chosen =>
    have present := Evaluation.isList_evaluate store.table store.arena child list chosen
    exact List.forall_mem_cons.mpr
      ⟨follows.issued (Arena.issued_of_hasChildList present), kept⟩
  | left =>
    exact List.forall_mem_cons.mpr (List.forall_mem_cons.mp (List.forall_mem_cons.mp kept).2)

end

theorem keeps_start {origin arena : Arena} {table : Option SymbolTable}
    (kept : RecordGraph.Keeps others registry origin table arena) (root : NodeId)
    (limit : DepthLimit) : Keeps others registry origin (start arena table root limit) :=
  ⟨kept, forall_mem_start fun live => Arena.issued_of_contains live⟩

namespace Keeps

theorem step (keeps : Keeps others registry before walk) :
    Keeps others registry before walk.step.2 := by
  rcases walk.step_cases with ⟨after, later, same, steps⟩
  have sound : Sound others registry walk.store.table walk.store.arena := keeps.state.sound
  have grounded : ∀ frame ∈ walk.frames.list, walk.store.arena.Issued frame.list := keeps.grounded
  have kept := keeps_steps sound grounded steps
  rw [same]
  exact ⟨keeps.state.trans kept, grounded_steps kept.follows grounded steps⟩

theorem skip (keeps : Keeps others registry before walk) :
    Keeps others registry before walk.skip :=
  ⟨keeps.state, forall_mem_skip (fun _ => id) keeps.grounded⟩

theorem settle {rounds : Nat} {settled : Walk} (keeps : Keeps others registry before walk)
    (ran : walk.settle rounds = some settled) : Keeps others registry before settled := by
  induction rounds generalizing walk with
  | zero => cases ran
  | succ rounds induction =>
    have stepped := keeps.step
    unfold Walk.settle at ran
    split at ran
    · rename_i same
      rw [same] at stepped
      exact induction stepped ran
    · rename_i same
      rw [same] at stepped
      cases ran
      exact stepped

theorem advance {rounds : Nat} {later : Walk} (keeps : Keeps others registry before walk)
    (ran : walk.advance rounds = some later) : Keeps others registry before later := by
  obtain ⟨settled, found, rfl⟩ := Option.map_eq_some_iff.mp ran
  exact (keeps.settle found).skip

theorem current {rounds : Nat} {given : Option NodeId} {later : Walk}
    (keeps : Keeps others registry before walk) (ran : walk.current rounds = some (given, later)) :
    Keeps others registry before later := by
  obtain ⟨settled, found, same⟩ := Option.map_eq_some_iff.mp ran
  cases same
  exact keeps.settle found

theorem next {rounds : Nat} {given : Option NodeId} {later : Walk}
    (keeps : Keeps others registry before walk) (ran : walk.next rounds = some (given, later)) :
    Keeps others registry before later := by
  rcases next_cases ran with ⟨looked, -⟩ | ⟨node, middle, -, looked, advanced⟩
  · exact keeps.current looked
  · exact (keeps.current looked).advance advanced

end Keeps
end Walk
end RecordGraph
