import RecordGraph.Proofs.AttrList
import RecordGraph.Proofs.Evaluation.Marks
import RecordGraph.Proofs.Walk.Calls

/-!
# Walks without a symbol table

Without a table a walk has nowhere to store what an expression comes to and nothing to bind its
loops in. It still counts and selects, so it leaves counters in the nodes of its loops and marks on
the nodes that it evaluates, and nothing else.
-/

namespace RecordGraph

/-! ## What may change of a node -/

/-- The later node differs in its counter if it is a loop, and in the mark for failure if it is a
guard, a switch or an expr. -/
structure Node.Traversed (node later : Node) : Prop where
  name : later.name = node.name
  nodeType : later.nodeType = node.nodeType
  children : later.children = node.children
  shareable : later.shareable = node.shareable
  bad : later.status.bad = node.status.bad
  attrs : later.attrs = node.attrs ∨ node.kind = .iterator ∧
    ∃ counter, later.attrs = some ((node.attrs.getD .empty).set .value (.int counter))
  failed : later.status.failed = node.status.failed ∨ node.kind.isConditional = true

namespace Node.Traversed

theorem refl (node : Node) : node.Traversed node :=
  ⟨rfl, rfl, rfl, rfl, rfl, .inl rfl, .inl rfl⟩

theorem kind {node later : Node} (traversed : node.Traversed later) : later.kind = node.kind :=
  congrArg NodeType.kind traversed.nodeType

theorem trans {first second third : Node} (left : first.Traversed second)
    (right : second.Traversed third) : first.Traversed third where
  name := right.name.trans left.name
  nodeType := right.nodeType.trans left.nodeType
  children := right.children.trans left.children
  shareable := right.shareable.trans left.shareable
  bad := right.bad.trans left.bad
  attrs := by
    rcases right.attrs with same | ⟨iterates, counter, set⟩
    · rw [same]
      exact left.attrs
    · rw [left.kind] at iterates
      refine .inr ⟨iterates, counter, ?_⟩
      rcases left.attrs with same | ⟨-, earlier, before⟩
      · rw [set, same]
      · rw [set, before, Option.getD_some, AttrList.set_set]
  failed := by
    rcases right.failed with same | conditional
    · rw [same]
      exact left.failed
    · rw [left.kind] at conditional
      exact .inr conditional

theorem setCounter {node : Node} (iterates : node.kind = .iterator) (counter : Int64) :
    node.Traversed (node.setAttr .value (.int counter)) where
  name := rfl
  nodeType := rfl
  children := rfl
  shareable := rfl
  bad := rfl
  attrs := .inr ⟨iterates, counter, rfl⟩
  failed := .inl rfl

theorem failing {node : Node} (conditional : node.kind.isConditional = true) (failed : Bool) :
    node.Traversed (node.failing failed) where
  name := rfl
  nodeType := rfl
  children := rfl
  shareable := rfl
  bad := rfl
  attrs := .inl rfl
  failed := .inr conditional

end Node.Traversed

/-! ## What may change of an arena -/

/-- The same nodes are live, with as many owners, and differ no more than walks without a table
leave them different. The names and the free slots are the same. -/
structure Arena.Traversed (before after : Arena) : Prop where
  names : after.names = before.names
  free : after.free = before.free
  count : after.live = before.live
  live : ∀ {id node owners}, before.live? id = some (node, owners) →
    ∃ later, after.live? id = some (later, owners) ∧ node.Traversed later
  stale : ∀ {id}, before.live? id = none → after.live? id = none

namespace Arena.Traversed

theorem refl (arena : Arena) : arena.Traversed arena :=
  ⟨rfl, rfl, rfl, fun found => ⟨_, found, .refl _⟩, id⟩

theorem trans {before middle after : Arena} (left : before.Traversed middle)
    (right : middle.Traversed after) : before.Traversed after where
  names := right.names.trans left.names
  free := right.free.trans left.free
  count := right.count.trans left.count
  live found := by
    rcases left.live found with ⟨between, foundBetween, first⟩
    rcases right.live foundBetween with ⟨later, foundLater, second⟩
    exact ⟨later, foundLater, first.trans second⟩
  stale := right.stale ∘ left.stale

theorem modifyNode {arena : Arena} {id : NodeId} {change : Node → Node}
    (traversed : ∀ {node}, arena.node? id = some node → node.Traversed (change node)) :
    arena.Traversed (arena.modifyNode id change) where
  names := rfl
  free := rfl
  count := rfl
  live {other node owners} found := by
    rw [live?_modifyNode]
    split
    · rename_i same
      subst same
      have known : arena.node? other = some node := by rw [node?, found, Option.map_some]
      exact ⟨change node, by rw [found, Option.map_some], traversed known⟩
    · exact ⟨node, found, .refl node⟩
  stale {other} none := by
    rw [live?_modifyNode]
    split
    · rename_i same
      rw [← same, none, Option.map_none]
    · exact none

theorem kind? {before after : Arena} (traversed : before.Traversed after) (id : NodeId) :
    after.kind? id = before.kind? id := by
  rw [Arena.kind?, node?, Arena.kind?, node?]
  cases found : before.live? id with
  | none => rw [traversed.stale found]
  | some content =>
    rcases traversed.live found with ⟨later, foundLater, related⟩
    rw [foundLater, Option.map_some, Option.map_some, Option.map_some, Option.map_some,
      related.kind]

end Arena.Traversed

/-! ## Evaluations without a table -/

namespace Evaluation

theorem evaluate_expr_none {arena : Arena} {node : NodeId}
    (expr : arena.kind? node = some .expr) : ∃ failures, evaluate none arena node =
      ⟨none, none, arena.modifyNode node (Node.failing true), failures⟩ := by
  simp only [evaluate, expr, runExpression]
  split
  · simp only [settle, Node.mark_failed]
    exact ⟨_, rfl⟩
  · simp only [settle, Node.mark_failed]
    exact ⟨_, rfl⟩

/-- A guard or a switch is marked as it turns out, and an expression is marked as failed. -/
theorem evaluate_none {arena : Arena} {node : NodeId}
    (conditional : (arena.kind? node).any Kind.isConditional = true) :
    (evaluate none arena node).table = none ∧
      ∃ failed, (evaluate none arena node).arena = arena.modifyNode node (Node.failing failed) ∧
        (arena.kind? node = some .expr → failed = true) := by
  by_cases expr : arena.kind? node = some .expr
  · rcases evaluate_expr_none expr with ⟨failures, same⟩
    rw [same]
    exact ⟨rfl, true, rfl, fun _ => rfl⟩
  · rcases evaluate_cases none (selects_of_conditional conditional expr) with
      ⟨list, failed, failures, same⟩
    rw [same arena (.refl arena)]
    exact ⟨rfl, failed, rfl, fun known => absurd known expr⟩

end Evaluation

/-! ## Marks that stay -/

def Arena.HasFailed (arena : Arena) (id : NodeId) : Prop :=
  (arena.node? id).map (·.status.failed) = some true

namespace Arena

variable {arena : Arena} {id : NodeId}

theorem hasFailed_failing {kind : Kind} (known : arena.kind? id = some kind) :
    (arena.modifyNode id (Node.failing true)).HasFailed id := by
  rcases Option.map_eq_some_iff.mp known with ⟨node, found, -⟩
  rcases Option.map_eq_some_iff.mp found with ⟨content, live, -⟩
  rw [HasFailed, node?, live?_modifyNode, if_pos rfl, live]
  rfl

theorem HasFailed.modifyNode {other : NodeId} {change : Node → Node} (failed : arena.HasFailed id)
    (kept : id = other → ∀ node : Node, node.status.failed = true →
      (change node).status.failed = true) : (arena.modifyNode other change).HasFailed id := by
  rcases Option.map_eq_some_iff.mp failed with ⟨node, found, marked⟩
  rcases Option.map_eq_some_iff.mp found with ⟨content, live, rfl⟩
  rw [HasFailed, node?, live?_modifyNode]
  split
  · rename_i same
    rw [← same, live, Option.map_some, Option.map_some, Option.map_some, kept same _ marked]
  · rw [live, Option.map_some, Option.map_some, marked]

end Arena

/-! ## Steps without a table -/

/-- What was stored on the way of a walk without a table does no harm: to the arena that it began
with, and the expressions that it met are marked. -/
structure Store.Harmless (origin : Arena) (visits : List Visit) (store : Store) : Prop where
  tableless : store.table = none
  traversed : origin.Traversed store.arena
  marked : ∀ visit ∈ visits, origin.kind? visit.node = some .expr →
    store.arena.HasFailed visit.node

namespace Store.Harmless

variable {origin : Arena} {visits : List Visit} {store : Store}
  (harmless : store.Harmless origin visits)

include harmless

theorem note (new : List Failure) : (store.note new).Harmless origin visits :=
  ⟨harmless.tableless, harmless.traversed, harmless.marked⟩

theorem visited {frames : List Frame} {loop : NodeId}
    (iterates : store.arena.kind? loop = some .iterator) :
    store.Harmless origin (visits ++ [⟨frames, loop⟩]) where
  tableless := harmless.tableless
  traversed := harmless.traversed
  marked met member expr := by
    rcases List.mem_append.mp member with earlier | new
    · exact harmless.marked met earlier expr
    · cases List.mem_singleton.mp new
      rw [← harmless.traversed.kind?, iterates] at expr
      cases expr

theorem bindCounter {loop : NodeId} (iterates : origin.kind? loop = some .iterator)
    (counter : Int64) : (store.bindCounter loop counter).Harmless origin visits := by
  have same : store.bindCounter loop counter =
      ⟨store.arena.modifyNode loop (·.setAttr .value (.int counter)), none, store.failures⟩ := by
    simp only [Store.bindCounter, harmless.tableless]
  rw [same]
  refine ⟨rfl, harmless.traversed.trans (.modifyNode fun {node} found => ?_),
    fun visit member expr => (harmless.marked visit member expr).modifyNode fun _ _ => id⟩
  have known := harmless.traversed.kind? loop
  rw [iterates, Arena.kind?, found, Option.map_some, Option.some.injEq] at known
  exact .setCounter known counter

/-- An expression that is evaluated is marked, and no mark of an expression is taken back. -/
theorem evaluated {frames : List Frame} {child : NodeId}
    (conditional : (store.arena.kind? child).any Kind.isConditional = true) :
    (store.evaluated child).Harmless origin (visits ++ [⟨frames, child⟩]) := by
  rcases Evaluation.evaluate_none conditional with ⟨tableless, failed, same, certain⟩
  rw [← harmless.tableless] at tableless same
  have sameKind := harmless.traversed.kind? child
  refine ⟨tableless.trans harmless.tableless, ?_, fun visit member expr => ?_⟩
  · refine harmless.traversed.trans ?_
    rw [Store.evaluated, same]
    refine .modifyNode fun {node} found => .failing ?_ failed
    rwa [Arena.kind?, found, Option.map_some, Option.any_some] at conditional
  · rw [Store.evaluated, same]
    have marks (own : visit.node = child) : failed = true :=
      certain (by rw [sameKind, ← own, expr])
    rcases List.mem_append.mp member with earlier | new
    · exact (harmless.marked visit earlier expr).modifyNode fun own _ _ => marks own
    · cases List.mem_singleton.mp new
      rw [← sameKind] at expr
      rw [marks rfl]
      exact Arena.hasFailed_failing expr

end Store.Harmless

namespace Walk

structure Harmless (origin : Arena) (visits : List Visit) (walk : Walk) : Prop where
  store : walk.store.Harmless origin visits
  loops : ∀ frame ∈ walk.frames.list, frame.turn ≠ none → origin.kind? frame.list = some .iterator

namespace Harmless

variable {origin : Arena} {visits : List Visit} {walk later : Walk}

/-- What one step keeps, with the visit that it makes. -/
theorem step (harmless : Harmless origin visits walk) (moved : walk.step = (true, later)) :
    Harmless origin (visits ++ walk.visit?.toList) later := by
  have moves := moves_step walk
  rcases harmless with ⟨harmless, loops⟩
  generalize walk.store = store at harmless moves
  generalize walk.frames.list = frames at loops moves
  generalize walk.visit? = due at moves ⊢
  generalize walk.step = after at moves moved
  have kinds := harmless.traversed.kind?
  cases moves with
  | rests => cases moved
  | turns less =>
    cases moved
    have iterates := loops _ List.mem_cons_self (Option.some_ne_none _)
    rw [Option.toList_none, List.append_nil]
    exact ⟨harmless.bindCounter iterates _, List.forall_mem_cons.mpr
      ⟨fun _ => iterates, (List.forall_mem_cons.mp loops).2⟩⟩
  | leaves top below outer =>
    cases moved
    rw [Option.toList_none, List.append_nil]
    exact ⟨harmless, List.forall_mem_cons.mpr
      (List.forall_mem_cons.mp (List.forall_mem_cons.mp loops).2)⟩
  | passes new iterates =>
    cases moved
    exact ⟨(harmless.visited iterates).note new,
      List.forall_mem_cons.mpr (List.forall_mem_cons.mp loops)⟩
  | @enters _ _ loop _ _ new found iterates order =>
    cases moved
    have known := kinds loop
    rw [iterates] at known
    exact ⟨((harmless.visited iterates).note new).bindCounter known.symm _,
      List.forall_mem_cons.mpr ⟨fun _ => known.symm, loops⟩⟩
  | unselected new found conditional =>
    cases moved
    exact ⟨(harmless.evaluated conditional).note new,
      List.forall_mem_cons.mpr (List.forall_mem_cons.mp loops)⟩
  | selected found conditional chosen =>
    cases moved
    exact ⟨harmless.evaluated conditional,
      List.forall_mem_cons.mpr ⟨fun turn => absurd rfl turn, loops⟩⟩

theorem skip (harmless : Harmless origin visits walk) : Harmless origin visits walk.skip :=
  ⟨harmless.store, forall_mem_skip (fun _ => id) harmless.loops⟩

end Harmless

theorem harmless_start (arena : Arena) (root : NodeId) (limit : DepthLimit) :
    Harmless arena [] (start arena none root limit) :=
  ⟨⟨rfl, .refl arena, nofun⟩, forall_mem_start fun _ turn => absurd rfl turn⟩

/-- Whatever is asked of a walk without a table, and however often, it gets no table, and the same
nodes are live, with the same names, types, child lists and owners. Loops differ in the counter and
guards, switches and expressions in the mark for failure, which is on every expression that the walk
has met. -/
theorem tableless_walk_harmless (arena : Arena) (root : NodeId) (limit : DepthLimit)
    {rounds : Nat} {calls : List Call} {all : List Reply}
    (ran : (start arena none root limit).replies rounds [] calls = some all) :
    ∀ reply ∈ all, reply.walk.table = none ∧ arena.Traversed reply.walk.arena ∧
      ∀ visit ∈ reply.visits, arena.kind? visit.node = some .expr →
        reply.walk.arena.HasFailed visit.node := by
  intro reply member
  have harmless := (holds_of_replies (Harmless arena) Harmless.step Harmless.skip
    (harmless_start arena root limit) ran reply member).store
  exact ⟨harmless.tableless, harmless.traversed, harmless.marked⟩

/-- A loop of two turns over an expression and a guard that holds. -/
def unbound : Arena :=
  let loop := ((Node.ofKind "i" .iterator).setAttr .start (.int 1)).setAttr .stop (.int 2)
  let expr := ((Node.ofKind "" .expr).setAttr .op (.text "SET")).setAttr .var1 (.text "$i")
  let guard := ((Node.ofKind "g" .guard).setAttr .test (.text "<")).setAttr .var1 (.int 1)
  let stored := Arena.empty.allocAll
    [.ofKind "root" .list, loop, expr, guard.setAttr .var2 (.int 2), .ofKind "n" .int]
  stored.linkAll [(⟨0, 0⟩, ⟨1, 0⟩), (⟨1, 0⟩, ⟨2, 0⟩), (⟨1, 0⟩, ⟨3, 0⟩), (⟨3, 0⟩, ⟨4, 0⟩)]

/-- The node below the guard is handed out in both turns, and the expression has failed in both. -/
theorem tableless_walk_harmless_unbound :
    ∃ all, (start unbound none ⟨0, 0⟩ ⟨3⟩).replies 40 [] [.next, .next, .next] = some all ∧
      all.map (fun reply => (reply.answer, reply.walk.arena.attrById? ⟨1, 0⟩ .value,
        reply.visits.map (·.node.index))) =
        [(some ⟨4, 0⟩, some (.int 1), [1, 2, 3]), (some ⟨4, 0⟩, some (.int 2), [1, 2, 3, 2, 3]),
          (none, some (.int 2), [1, 2, 3, 2, 3])] ∧
      ∀ reply ∈ all, reply.walk.table = none ∧ unbound.Traversed reply.walk.arena ∧
        ∀ visit ∈ reply.visits, unbound.kind? visit.node = some .expr →
          reply.walk.arena.HasFailed visit.node := by
  have replies : ((start unbound none ⟨0, 0⟩ ⟨3⟩).replies 40 [] [.next, .next, .next]).map
      (·.map fun reply => (reply.answer, reply.walk.arena.attrById? ⟨1, 0⟩ .value,
        reply.visits.map (·.node.index))) =
      some [(some ⟨4, 0⟩, some (.int 1), [1, 2, 3]), (some ⟨4, 0⟩, some (.int 2), [1, 2, 3, 2, 3]),
        (none, some (.int 2), [1, 2, 3, 2, 3])] := by decide +kernel
  rcases Option.map_eq_some_iff.mp replies with ⟨all, replied, same⟩
  exact ⟨all, replied, same, tableless_walk_harmless unbound ⟨0, 0⟩ ⟨3⟩ replied⟩

end Walk
end RecordGraph
