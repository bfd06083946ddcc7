import RecordGraph.Proofs.SymbolTable.Refusal
import RecordGraph.Proofs.SymbolTable.Typing
import RecordGraph.Proofs.Walk.Termination

/-!
# Walks respect the kinds of nodes

A walk stores the counters of its loops, which are integers, and the results of expressions. A
counter is stored in the node whose loop runs. That node was an iterator when its frame was entered,
and it still is, or else it is gone: nodes keep their kinds, and no id is given out twice.
-/

namespace RecordGraph

open RecordGraph.Arena (Respects)

structure Arena.Loops (arena : Arena) (id : NodeId) : Prop where
  issued : arena.Issued id
  kind : ∀ {node}, arena.node? id = some node → node.kind = .iterator

theorem Arena.Loops.later {before after : Arena} {id : NodeId} (loops : before.Loops id)
    (respects : before.Respects after) : after.Loops id where
  issued := respects.issued loops.issued
  kind found := by
    rcases respects.node found with ⟨earlier, known, respected⟩ | ⟨new, -⟩
    · rw [respected.kind, loops.kind known]
    · exact absurd loops.issued new

theorem Arena.loops_of_kind? {arena : Arena} {id : NodeId}
    (iterates : arena.kind? id = some .iterator) : arena.Loops id where
  issued := issued_of_kind? iterates
  kind found := by
    rw [kind?, found, Option.map_some, Option.some.injEq] at iterates
    exact iterates

namespace Walk

def Looping (arena : Arena) (frames : List Frame) : Prop :=
  ∀ frame ∈ frames, frame.turn.isSome = true → arena.Loops frame.list

theorem Looping.later {before after : Arena} {frames : List Frame}
    (looping : Looping before frames) (respects : before.Respects after) : Looping after frames :=
  fun frame member turns => (looping frame member turns).later respects

section

variable {others : NodeId → Nat} {registry : Option Registry} {store after : Store}
  {limit : DepthLimit} {frames later : List Frame}

theorem respects_bindCounter {loop : NodeId} (loops : store.arena.Loops loop) (counter : Int64) :
    store.arena.Respects (store.bindCounter loop counter).arena := by
  rcases store with ⟨arena, table, failures⟩
  have stored : arena.Respects (arena.modifyNode loop (·.setAttr .value (.int counter))) := by
    refine .modifyNode fun {node} found => ⟨rfl, fun typed => typed.setAttr .value ?_⟩
    rw [loops.kind found]
    rfl
  cases table with
  | none => exact stored
  | some table => exact stored.trans (table.respects_define _ _ _)

theorem respects_steps (sound : Sound others registry store.table store.arena)
    (direct : ∀ own, registry = some own → own.Direct) (looping : Looping store.arena frames)
    (steps : Steps limit store frames after later) : store.arena.Respects after.arena := by
  cases steps with
  | rested | passed | left => exact .refl _
  | entered new found iterates =>
    have loops : (store.note new).arena.Loops _ := Arena.loops_of_kind? iterates
    exact respects_bindCounter loops _
  | unselected child | @selected _ _ child =>
    exact Evaluation.respects_evaluate sound direct child
  | turned => exact respects_bindCounter (looping _ List.mem_cons_self rfl) _

theorem looping_steps (respects : store.arena.Respects after.arena)
    (looping : Looping store.arena frames) (steps : Steps limit store frames after later) :
    Looping after.arena later := by
  have kept := looping.later respects
  unfold Looping at kept ⊢
  cases steps with
  | rested => exact kept
  | passed | unselected | turned => exact List.forall_mem_cons.mpr (List.forall_mem_cons.mp kept)
  | entered new found iterates =>
    exact List.forall_mem_cons.mpr ⟨fun _ => (Arena.loops_of_kind? iterates).later respects, kept⟩
  | selected => exact List.forall_mem_cons.mpr ⟨nofun, kept⟩
  | left =>
    exact List.forall_mem_cons.mpr (List.forall_mem_cons.mp (List.forall_mem_cons.mp kept).2)

end

variable {others : NodeId → Nat} {registry : Option Registry} {origin : Arena} {walk : Walk}

structure Respected (others : NodeId → Nat) (registry : Option Registry) (origin : Arena)
    (walk : Walk) : Prop extends Keeps others registry origin walk where
  respects : origin.Respects walk.arena
  looping : Looping walk.arena walk.frames.list

theorem respected_start {table : Option SymbolTable} (sound : Sound others registry table origin)
    (root : NodeId) (limit : DepthLimit) :
    Respected others registry origin (start origin table root limit) where
  toKeeps := keeps_start (.refl sound) root limit
  respects := .refl origin
  looping := forall_mem_start fun _ => nofun

theorem Respected.skip (respected : Respected others registry origin walk) :
    Respected others registry origin walk.skip :=
  ⟨respected.toKeeps.skip, respected.respects, forall_mem_skip (fun _ => id) respected.looping⟩

theorem Respected.step (respected : Respected others registry origin walk)
    (direct : ∀ own, registry = some own → own.Direct) :
    Respected others registry origin walk.step.2 := by
  have kept := respected.toKeeps.step
  rcases walk.step_cases with ⟨after, later, same, steps⟩
  have sound : Sound others registry walk.store.table walk.store.arena := respected.state.sound
  have respects := respects_steps sound direct respected.looping steps
  have looping := looping_steps respects respected.looping steps
  rw [same] at kept ⊢
  exact ⟨kept, respected.respects.trans respects, looping⟩

theorem respected_of_passes {table : Option SymbolTable} {root : NodeId} {limit : DepthLimit}
    {read : List (Option (Int64 × Int64))} (sound : Sound others registry table origin)
    (direct : ∀ own, registry = some own → own.Direct)
    (passes : Passes (start origin table root limit) walk read) :
    Respected others registry origin walk := by
  induction passes with
  | start => exact respected_start sound root limit
  | step _ induction => exact induction.step direct
  | skip _ induction => exact induction.skip

end Walk

namespace Workspace

/-- In a balanced state with well-typed nodes, over tables that build leaves, whatever is assigned
or evaluated and wherever a walk stands on its way: all nodes are well typed. -/
theorem stores_respect_kinds {workspace : Workspace} {holds : NodeId → Nat}
    (balanced : workspace.Balanced holds)
    (direct : ∀ table ∈ workspace.tables, table.registry.Direct)
    (typed : workspace.arena.WellTyped) :
    (∀ table ∈ workspace.tables, ∀ path value,
      (table.assign workspace.arena path value).arena.WellTyped) ∧
    (∀ table ∈ workspace.tables, ∀ node,
      (Evaluation.evaluateExpression table workspace.arena node).arena.WellTyped) ∧
    ∀ table : Option SymbolTable, (∀ own, table = some own → own ∈ workspace.tables) →
      (∀ node, (Evaluation.evaluate table workspace.arena node).arena.WellTyped) ∧
      ∀ root limit walk read, Walk.Passes (Walk.start workspace.arena table root limit) walk read →
        walk.arena.WellTyped := by
  have sound (table : Option SymbolTable)
      (member : ∀ own, table = some own → own ∈ workspace.tables) :
      (∃ others, Sound others (table.map (·.registry)) table workspace.arena) ∧
        ∀ own, table.map (·.registry) = some own → own.Direct := by
    refine ⟨balanced.sound member fun own same => (direct own (member own same)).allocates, ?_⟩
    intro own same
    rcases Option.map_eq_some_iff.mp same with ⟨table, present, rfl⟩
    exact direct table (member table present)
  have present {table : SymbolTable} (member : table ∈ workspace.tables) (own : SymbolTable)
      (same : some table = some own) : own ∈ workspace.tables :=
    Option.some.inj same ▸ member
  refine ⟨fun table member path value => ?_, fun table member node => ?_, fun table member =>
    ⟨fun node => ?_, fun root limit walk read passes => ?_⟩⟩
  · rcases (sound table (present member)).1 with ⟨others, sound⟩
    exact (SymbolTable.respects_assign sound (direct table member) path value).wellTyped typed
  · rcases sound table (present member) with ⟨⟨others, sound⟩, direct⟩
    exact (Evaluation.respects_evaluateExpression direct sound node).wellTyped typed
  · rcases sound table member with ⟨⟨others, sound⟩, direct⟩
    exact (Evaluation.respects_evaluate sound direct node).wellTyped typed
  · rcases sound table member with ⟨⟨others, sound⟩, direct⟩
    exact (Walk.respected_of_passes sound direct passes).respects.wellTyped typed

open SymbolTable (keyed) in
theorem wellTyped_keyed : keyed.2.WellTyped := by
  have stored : Arena.empty.Respects sample.arena :=
    .alloc Arena.steady_empty.wellFormed rfl (Node.wellTyped_of_missing rfl)
  have bound := SymbolTable.respects_define (.empty "main") sample.arena "a" ⟨0, 0⟩
  exact (stored.trans bound).wellTyped Arena.wellTyped_empty

open SymbolTable (keyed) in
/-- A text that is assigned to a node of integers is read as one. -/
theorem stores_respect_kinds_keyed :
    keyed.2.WellTyped ∧
      (keyed.1.assign keyed.2 "a" (.text "12 apples")).arena.attrById? ⟨0, 0⟩ .value =
        some (.int 12) ∧
      (keyed.1.assign keyed.2 "a" (.text "12 apples")).arena.WellTyped ∧
      ∀ walk read, Walk.Passes (Walk.start keyed.2 (some keyed.1) ⟨0, 0⟩ .frames) walk read →
        walk.arena.WellTyped := by
  have standard : keyed.1.registry = .standard := SymbolTable.registry_define ..
  have direct (table : SymbolTable) (member : table ∈ [keyed.1]) : table.registry.Direct := by
    rw [List.mem_singleton.mp member, standard]
    exact Registry.direct_standard
  have kept := @stores_respect_kinds ⟨keyed.2, [keyed.1]⟩ _ SymbolTable.balanced_keyed direct
    wellTyped_keyed
  have member : keyed.1 ∈ [keyed.1] := List.mem_singleton_self _
  refine ⟨wellTyped_keyed, by decide +kernel, kept.1 keyed.1 member "a" _, ?_⟩
  exact (kept.2.2 (some keyed.1) fun own same => Option.some.inj same ▸ member).2 ⟨0, 0⟩ .frames

end Workspace
end RecordGraph
