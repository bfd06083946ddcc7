import RecordGraph.Proofs.Arena.Acyclic
import RecordGraph.Proofs.Evaluation.Marks
import RecordGraph.Proofs.SymbolTable.Rebinding
import RecordGraph.Proofs.Walk.Calls
import RecordGraph.Proofs.Workspace

/-!
# Loop variables

A counter stands in three places: in the frame of its loop, in the node of the loop, and under the
name of the loop in the symbol table. They are brought up to date when the loop is entered and at
each of its turns. In between other loops are bound, and what was bound before may be given up and
go, with all that it alone owned.

A loop that is walked is bound, so it stays. The loops that are walked at the same time stand one
below the other, and if no two such loops have the same name, none takes the name of another.
-/

namespace RecordGraph

/-- No expression stands below a node, and no loop below it has a loop of the same name below
itself. -/
structure Arena.Unshadowed (arena : Arena) (root : NodeId) : Prop where
  exprless : ∀ id, arena.Below root id → arena.kind? id ≠ some .expr
  distinct : ∀ outer inner, arena.Below root outer → arena.Below outer inner →
    arena.kind? outer = some .iterator → arena.kind? inner = some .iterator →
    arena.name outer ≠ arena.name inner

/-! ## Loops that show their turn -/

namespace Walk

structure Shows (own : SymbolTable) (arena : Arena) (loop : NodeId) (counter : Int64) : Prop where
  bound : own.lookup (arena.name loop) = some loop
  value : arena.attrById? loop .value = some (.int counter)

namespace Shows

variable {own : SymbolTable} {arena after : Arena} {others : NodeId → Nat} {loop : NodeId}
  {counter : Int64} (shown : Shows own arena loop counter)

include shown

theorem contains : arena.contains loop = true :=
  Arena.contains_of_attrById? shown.value

theorem of_node? (same : after.node? loop = arena.node? loop) : Shows own after loop counter where
  bound := by
    rw [Arena.name, same]
    exact shown.bound
  value := by
    rw [Arena.attrById?, same]
    exact shown.value

theorem remarked (remarked : arena.Remarked after) : Shows own after loop counter where
  bound := by
    rw [remarked.name]
    exact shown.bound
  value := by
    rw [remarked.attrById?]
    exact shown.value

theorem define (accounts : arena.Accounts fun id => own.bindingCount id + others id)
    {key : String} (different : arena.name loop ≠ key) (node : NodeId) :
    Shows (own.define arena key node).1 (own.define arena key node).2 loop counter := by
  have bound := (own.lookup_define_other arena different node).trans shown.bound
  have claimed := Nat.add_pos_left (SymbolTable.bindingCount_pos bound) (others loop)
  have live := SymbolTable.contains_define_of_claimed accounts key node claimed shown.contains
  have still : Shows (own.define arena key node).1 arena loop counter := ⟨bound, shown.value⟩
  exact still.of_node? (SymbolTable.node?_define live)

end Shows

section

variable {store : Store} {own : SymbolTable} {others : NodeId → Nat} {loop : NodeId}

/-- The loop whose counter is bound shows it, and those of other names show what they showed. -/
theorem shows_bindCounter (table : store.table = some own)
    (accounts : store.arena.Accounts fun id => own.bindingCount id + others id)
    (live : store.arena.contains loop = true) (counter : Int64) :
    ∃ later, (store.bindCounter loop counter).table = some later ∧
      ((store.bindCounter loop counter).arena.Accounts fun id =>
        later.bindingCount id + others id) ∧
      store.arena.Thins (store.bindCounter loop counter).arena ∧
      Shows later (store.bindCounter loop counter).arena loop counter ∧
      ∀ other value, Shows own store.arena other value →
        store.arena.name other ≠ store.arena.name loop →
        Shows later (store.bindCounter loop counter).arena other value := by
  rcases store with ⟨arena, known, failures⟩
  cases table
  let stored := arena.modifyNode loop (·.setAttr .value (.int counter))
  have liveStored : stored.contains loop = true := by rwa [Arena.contains_modifyNode]
  have thins : arena.Thins stored := .modifyNode arena loop fun _ => ⟨rfl, rfl, rfl⟩
  have accountsStored : stored.Accounts fun id => own.bindingCount id + others id :=
    accounts.settle (.childless arena loop fun _ => rfl)
  have bound := own.lookup_define stored (stored.name loop) loop
  have claimed := Nat.add_pos_left (SymbolTable.bindingCount_pos bound) (others loop)
  have stays := SymbolTable.contains_define_of_claimed accountsStored (stored.name loop) loop
    claimed liveStored
  refine ⟨(own.define stored (stored.name loop) loop).1, rfl,
    (SymbolTable.accounts_define accountsStored _ (Arena.issued_of_contains liveStored)).1,
    thins.trans (SymbolTable.thins_define own stored _ loop), ?_, fun other value shown apart => ?_⟩
  · have shown : Shows (own.define stored (stored.name loop) loop).1 stored loop counter := by
      refine ⟨bound, ?_⟩
      rcases Arena.contains_iff.mp live with ⟨node, owners, found⟩
      rw [Arena.attrById?, Arena.node?, Arena.live?_modifyNode, if_pos rfl, found]
      simp
    exact shown.of_node? (SymbolTable.node?_define stays)
  · have different : other ≠ loop := by
      rintro rfl
      exact apart rfl
    have kept : Shows own stored other value := by
      refine shown.of_node? ?_
      rw [Arena.node?, Arena.live?_modifyNode, if_neg different, Arena.node?]
    refine kept.define accountsStored ?_ loop
    rwa [thins.name kept.contains, thins.name liveStored]

end

/-! ## Frames one below the other -/

/-- The lists of the frames stand one below the other, below a root that may be the outermost of
them. Turns are those of loops below the root. -/
structure Descends (origin : Arena) (root : NodeId) (frames : List Frame) : Prop where
  nested : frames.Pairwise fun inner outer => origin.Below outer.list inner.list
  within : ∀ frame ∈ frames, frame.list = root ∨ origin.Below root frame.list
  loops : ∀ frame ∈ frames, frame.turn ≠ none →
    origin.Below root frame.list ∧ origin.kind? frame.list = some .iterator

namespace Descends

variable {origin : Arena} {root : NodeId} {top new : Frame} {outer : List Frame}

theorem tail (descends : Descends origin root (top :: outer)) : Descends origin root outer where
  nested := (List.pairwise_cons.mp descends.nested).2
  within := (List.forall_mem_cons.mp descends.within).2
  loops := (List.forall_mem_cons.mp descends.loops).2

theorem below (descends : Descends origin root (top :: outer)) {id : NodeId}
    (below : origin.Below top.list id) : origin.Below root id := by
  rcases descends.within top List.mem_cons_self with same | under
  · rwa [← same]
  · exact under.trans below

theorem change (descends : Descends origin root (top :: outer)) (same : new.list = top.list)
    (turn : new.turn ≠ none → top.turn ≠ none) : Descends origin root (new :: outer) where
  nested := by
    rw [List.pairwise_cons, same]
    exact List.pairwise_cons.mp descends.nested
  within := by
    rw [List.forall_mem_cons, same]
    exact List.forall_mem_cons.mp descends.within
  loops := by
    rw [List.forall_mem_cons, same]
    exact (List.forall_mem_cons.mp descends.loops).imp_left (· ∘ turn)

theorem enter (descends : Descends origin root (top :: outer))
    (below : origin.Below top.list new.list)
    (turn : new.turn ≠ none → origin.kind? new.list = some .iterator) :
    Descends origin root (new :: top :: outer) where
  nested := by
    refine List.pairwise_cons.mpr ⟨List.forall_mem_cons.mpr ⟨below, ?_⟩, descends.nested⟩
    exact fun frame member =>
      ((List.pairwise_cons.mp descends.nested).1 frame member).trans below
  within := List.forall_mem_cons.mpr ⟨.inr (descends.below below), descends.within⟩
  loops := List.forall_mem_cons.mpr
    ⟨fun turns => ⟨descends.below below, turn turns⟩, descends.loops⟩

theorem name_ne (descends : Descends origin root (top :: outer))
    (unshadowed : origin.Unshadowed root) (turns : top.turn ≠ none) {frame : Frame}
    (member : frame ∈ outer) (turnsToo : frame.turn ≠ none) :
    origin.name frame.list ≠ origin.name top.list := by
  rcases descends.loops top List.mem_cons_self turns with ⟨-, iterates⟩
  rcases descends.tail.loops frame member turnsToo with ⟨below, iteratesToo⟩
  have inside := (List.pairwise_cons.mp descends.nested).1 frame member
  exact unshadowed.distinct _ _ below inside iteratesToo iterates

end Descends

/-! ## What every step keeps -/

structure Showing (origin : Arena) (root : NodeId) (others : NodeId → Nat) (own : SymbolTable)
    (store : Store) (frames : List Frame) : Prop where
  table : store.table = some own
  accounts : store.arena.Accounts fun id => own.bindingCount id + others id
  thins : origin.Thins store.arena
  descends : Descends origin root frames
  shown : ∀ frame ∈ frames, ∀ turn, frame.turn = some turn →
    Shows own store.arena frame.list turn.counter

namespace Showing

variable {origin : Arena} {root : NodeId} {others : NodeId → Nat} {own : SymbolTable}
  {store : Store} {top new : Frame} {outer frames : List Frame}

theorem note (showing : Showing origin root others own store frames) (new : List Failure) :
    Showing origin root others own (store.note new) frames :=
  ⟨showing.table, showing.accounts, showing.thins, showing.descends, showing.shown⟩

theorem tail (showing : Showing origin root others own store (top :: outer)) :
    Showing origin root others own store outer :=
  ⟨showing.table, showing.accounts, showing.thins, showing.descends.tail,
    (List.forall_mem_cons.mp showing.shown).2⟩

theorem skip (showing : Showing origin root others own store (top :: outer)) :
    Showing origin root others own store (top.skip :: outer) :=
  ⟨showing.table, showing.accounts, showing.thins, showing.descends.change rfl id,
    List.forall_mem_cons.mpr (List.forall_mem_cons.mp showing.shown)⟩

theorem below (showing : Showing origin root others own store (top :: outer)) {child : NodeId}
    (found : store.arena.child? top.list top.position = some child) :
    origin.Below top.list child :=
  .child (showing.thins.mem_children (Array.mem_of_getElem? found))

theorem below_selected (showing : Showing origin root others own store (top :: outer))
    {child list : NodeId} (found : store.arena.child? top.list top.position = some child)
    (chosen : (Evaluation.evaluate store.table store.arena child).result = some list) :
    origin.Below top.list list := by
  have below := showing.below found
  rcases (Evaluation.isNear_evaluate store.table store.arena child list chosen).2 with rfl | member
  · exact below
  · exact below.deeper (showing.thins.mem_children member)

variable (unshadowed : origin.Unshadowed root)
include unshadowed

theorem bindCounter (showing : Showing origin root others own store outer) {loop : NodeId}
    {counter stop : Int64}
    (descends : Descends origin root (⟨loop, 0, some ⟨counter, stop⟩⟩ :: outer))
    (live : store.arena.contains loop = true) :
    ∃ later, Showing origin root others later (store.bindCounter loop counter)
      (⟨loop, 0, some ⟨counter, stop⟩⟩ :: outer) := by
  rcases shows_bindCounter showing.table showing.accounts live counter with
    ⟨later, table, accounts, thins, own, kept⟩
  refine ⟨later, table, accounts, showing.thins.trans thins, descends,
    List.forall_mem_cons.mpr ⟨fun turn same => ?_, fun frame member turn same => ?_⟩⟩
  · cases same
    exact own
  · have shown := showing.shown frame member turn same
    have turns : frame.turn ≠ none := by simp [same]
    have apart := descends.name_ne unshadowed (Option.some_ne_none _) member turns
    rw [← showing.thins.name shown.contains, ← showing.thins.name live] at apart
    exact kept _ _ shown apart

theorem evaluated (showing : Showing origin root others own store (top :: outer)) {child : NodeId}
    (found : store.arena.child? top.list top.position = some child)
    (conditional : (store.arena.kind? child).any Kind.isConditional = true) :
    Showing origin root others own (store.evaluated child) (top :: outer) := by
  have other : store.arena.kind? child ≠ some .expr := fun expr =>
    unshadowed.exprless child (showing.descends.below (showing.below found))
      (showing.thins.kind? expr)
  rcases Evaluation.evaluate_cases store.table
    (Evaluation.selects_of_conditional conditional other) with ⟨list, failed, failures, same⟩
  have arena : (store.evaluated child).arena =
      store.arena.modifyNode child (Node.failing failed) := by
    rw [Store.evaluated, same _ (.refl _)]
  have table : (store.evaluated child).table = store.table := by
    rw [Store.evaluated, same _ (.refl _)]
  refine ⟨table.trans showing.table, ?_, ?_, showing.descends, fun frame member turn turns => ?_⟩
  · rw [arena]
    exact showing.accounts.settle (.childless _ child fun _ => rfl)
  · rw [arena]
    exact showing.thins.trans (.modifyNode _ child fun _ => ⟨rfl, rfl, rfl⟩)
  · rw [arena]
    exact (showing.shown frame member turn turns).remarked
      (store.arena.remarked_failing child failed)

/-- What one step keeps. A loop that begins a turn may have replaced the table. -/
theorem step {walk later : Walk}
    (showing : Showing origin root others own walk.store walk.frames.list)
    (moved : walk.step = (true, later)) :
    ∃ own, Showing origin root others own later.store later.frames.list := by
  have moves := moves_step walk
  generalize walk.store = store at showing moves
  generalize walk.frames.list = frames at showing moves
  generalize walk.visit? = due at moves
  generalize walk.step = after at moves moved
  cases moves with
  | rests => cases moved
  | turns less =>
    cases moved
    have shown := showing.shown _ List.mem_cons_self _ rfl
    exact showing.tail.bindCounter unshadowed
      (showing.descends.change rfl fun _ => Option.some_ne_none _) shown.contains
  | leaves top below outer =>
    cases moved
    exact ⟨own, showing.tail.skip⟩
  | passes new iterates =>
    cases moved
    exact ⟨own, (showing.note new).skip⟩
  | @enters top outer loop start stop new found iterates order =>
    cases moved
    have descends : Descends origin root (⟨loop, 0, some ⟨start, stop⟩⟩ :: top :: outer) :=
      showing.descends.enter (showing.below found) fun _ => showing.thins.kind? iterates
    exact (showing.note new).bindCounter unshadowed descends (Arena.contains_of_kind? iterates)
  | unselected new found conditional =>
    cases moved
    exact ⟨own, ((showing.evaluated unshadowed found conditional).note new).skip⟩
  | selected found conditional chosen =>
    cases moved
    have evaluated := showing.evaluated unshadowed found conditional
    exact ⟨own, evaluated.table, evaluated.accounts, evaluated.thins,
      showing.descends.enter (showing.below_selected found chosen) fun turns => absurd rfl turns,
      List.forall_mem_cons.mpr ⟨nofun, evaluated.shown⟩⟩

end Showing

section

variable {origin : Arena} {root : NodeId} {others : NodeId → Nat} {own : SymbolTable} {walk : Walk}

theorem showing_skip (showing : Showing origin root others own walk.store walk.frames.list) :
    Showing origin root others own walk.skip.store walk.skip.frames.list := by
  rcases walk with ⟨arena, table, ⟨frames, count, same⟩, limit, failures⟩
  cases frames with
  | nil => exact showing
  | cons top outer => exact showing.skip

theorem showing_start (accounts : origin.Accounts fun id => own.bindingCount id + others id)
    (root : NodeId) (limit : DepthLimit) :
    Showing origin root others own (start origin (some own) root limit).store
      (start origin (some own) root limit).frames.list := by
  have nested : (start origin (some own) root limit).frames.list.Pairwise
      fun inner outer => origin.Below outer.list inner.list := by
    rw [frames_start]
    split
    · exact List.pairwise_singleton _ _
    · exact .nil
  have descends : Descends origin root (start origin (some own) root limit).frames.list :=
    ⟨nested, forall_mem_start fun _ => .inl rfl, forall_mem_start fun _ turns => absurd rfl turns⟩
  exact ⟨rfl, accounts, .refl origin, descends, forall_mem_start fun _ => nofun⟩

/-- Each loop that is being walked is bound under its own name and has the counter of its turn. -/
def ShowsTurns (walk : Walk) : Prop :=
  ∃ own, walk.table = some own ∧ ∀ frame ∈ walk.frames.list, ∀ turn, frame.turn = some turn →
    Shows own walk.arena frame.list turn.counter

end

/-- In a balanced workspace let there be no expression below the root, and no loop with a loop of
the same name below it. Then whenever a call on the walk is answered, with a node or without one,
each loop that is being walked is the node that is bound under its name, and its value is the
counter of its turn. It does not matter what was bound before and is given up for the loops. -/
theorem loops_show_turns {workspace : Workspace} {holds : NodeId → Nat}
    (balanced : workspace.Balanced holds) {table : SymbolTable} (member : table ∈ workspace.tables)
    {root : NodeId} (unshadowed : workspace.arena.Unshadowed root) {limit : DepthLimit}
    {rounds : Nat} {calls : List Call} {all : List Reply}
    (ran : (start workspace.arena (some table) root limit).replies rounds [] calls = some all) :
    ∀ reply ∈ all, reply.walk.ShowsTurns := by
  rcases List.mem_iff_getElem?.mp member with ⟨index, found⟩
  rcases Workspace.bindingCount_set found with ⟨others, counts, -⟩
  have accounts : workspace.arena.Accounts fun id =>
      table.bindingCount id + (others id + holds id) :=
    balanced.accounts.congr fun id => by rw [counts, Nat.add_assoc]
  intro reply answered
  rcases holds_of_replies
      (fun _ walk => ∃ own, Showing workspace.arena root (fun id => others id + holds id) own
        walk.store walk.frames.list)
      (fun ⟨_, showing⟩ moved => showing.step unshadowed moved)
      (fun ⟨own, showing⟩ => ⟨own, showing_skip showing⟩)
      ⟨table, showing_start accounts root limit⟩ ran reply answered with ⟨own, showing⟩
  exact ⟨own, showing.table, showing.shown⟩

def nest : Arena :=
  let loop (name : String) (first last : Int64) :=
    ((Node.ofKind name .iterator).setAttr .start (.int first)).setAttr .stop (.int last)
  let guard := ((Node.ofKind "g" .guard).setAttr .test (.text "<")).setAttr .var1 (.text "$i")
  let stored := Arena.empty.allocAll
    [.ofKind "root" .list, loop "i" 1 2, guard.setAttr .var2 (.int 5), loop "j" 5 6,
      .ofKind "n" .int, .ofKind "old" .list]
  stored.linkAll [(⟨0, 0⟩, ⟨1, 0⟩), (⟨1, 0⟩, ⟨2, 0⟩), (⟨2, 0⟩, ⟨3, 0⟩), (⟨3, 0⟩, ⟨4, 0⟩)]

def rebound : SymbolTable × Arena :=
  let outer := (SymbolTable.empty "t").define nest "i" ⟨0, 0⟩
  outer.1.define outer.2 "j" ⟨5, 0⟩

theorem balanced_rebound : Workspace.Balanced ⟨rebound.2, [rebound.1]⟩ fun _ => 0 := by
  have steady : nest.Steady [] fun _ => 0 :=
    Arena.steady_linkAll (Arena.steady_allocAll Arena.steady_empty _) _
  have unbound : nest.Accounts fun id => (SymbolTable.empty "t").bindingCount id + 0 :=
    (Arena.Accounts.of_steady steady).congr fun id => by
      rw [SymbolTable.bindingCount_of_empty rfl]
  have root : nest.Issued ⟨0, 0⟩ := Arena.issued_of_contains (by decide +kernel)
  have outer := SymbolTable.accounts_define unbound "i" root
  have list : nest.Issued ⟨5, 0⟩ := Arena.issued_of_contains (by decide +kernel)
  have inner := (SymbolTable.accounts_define outer.1 "j" (outer.2.issued list)).1
  exact Workspace.balanced_of_accounts (inner.congr fun id => by
    simp [Workspace.bindingCount, rebound])

theorem unshadowed_rebound : rebound.2.Unshadowed ⟨0, 0⟩ := by
  have all : ∀ id, rebound.2.Below ⟨0, 0⟩ id → id ∈ [⟨1, 0⟩, ⟨2, 0⟩, ⟨3, 0⟩, ⟨4, 0⟩] :=
    fun _ below => below.mem (by decide +kernel)
  have exprless : ∀ id ∈ [⟨1, 0⟩, ⟨2, 0⟩, ⟨3, 0⟩, ⟨4, 0⟩], rebound.2.kind? id ≠ some .expr := by
    decide +kernel
  have loops : ∀ id ∈ [⟨1, 0⟩, ⟨2, 0⟩, ⟨3, 0⟩, ⟨4, 0⟩], rebound.2.kind? id = some .iterator →
      id = ⟨1, 0⟩ ∨ id = ⟨3, 0⟩ := by decide +kernel
  refine ⟨fun id below => exprless id (all id below), fun outer inner below inside iterates _ => ?_⟩
  rcases loops outer (all outer below) iterates with rfl | rfl
  · have names : ∀ id ∈ [⟨2, 0⟩, ⟨3, 0⟩, ⟨4, 0⟩], rebound.2.name ⟨1, 0⟩ ≠ rebound.2.name id := by
      decide +kernel
    exact names inner (inside.mem (by decide +kernel))
  · have names : ∀ id ∈ [⟨4, 0⟩], rebound.2.name ⟨3, 0⟩ ≠ rebound.2.name id := by
      decide +kernel
    exact names inner (inside.mem (by decide +kernel))

/-- Both loops show their turns while their leaf is handed out. The root is gone by then, and so is
the list, for they were owned by the bindings alone. -/
theorem loops_show_turns_rebound :
    Workspace.Balanced ⟨rebound.2, [rebound.1]⟩ (fun _ => 0) ∧ rebound.2.Unshadowed ⟨0, 0⟩ ∧
      ∃ all, (start rebound.2 (some rebound.1) ⟨0, 0⟩ ⟨4⟩).replies 40 []
          [.next, .next, .next, .next, .next] = some all ∧
        all.map (fun reply => (reply.answer, reply.walk.frames.list.filterMap fun frame =>
          frame.turn.map fun turn => (frame.list.index, turn.counter))) =
          [(some ⟨4, 0⟩, [(3, 5), (1, 1)]), (some ⟨4, 0⟩, [(3, 6), (1, 1)]),
            (some ⟨4, 0⟩, [(3, 5), (1, 2)]), (some ⟨4, 0⟩, [(3, 6), (1, 2)]), (none, [])] ∧
        all.map (fun reply => reply.walk.arena.live) = [4, 4, 4, 4, 4] ∧
        ∀ reply ∈ all, reply.walk.ShowsTurns := by
  have replies : ((start rebound.2 (some rebound.1) ⟨0, 0⟩ ⟨4⟩).replies 40 []
      [.next, .next, .next, .next, .next]).map (fun all =>
        (all.map fun reply => (reply.answer, reply.walk.frames.list.filterMap fun frame =>
          frame.turn.map fun turn => (frame.list.index, turn.counter)),
        all.map fun reply => reply.walk.arena.live)) =
      some ([(some ⟨4, 0⟩, [(3, 5), (1, 1)]), (some ⟨4, 0⟩, [(3, 6), (1, 1)]),
        (some ⟨4, 0⟩, [(3, 5), (1, 2)]), (some ⟨4, 0⟩, [(3, 6), (1, 2)]), (none, [])],
        [4, 4, 4, 4, 4]) := by decide +kernel
  rcases Option.map_eq_some_iff.mp replies with ⟨all, replied, same⟩
  rcases Prod.mk.inj same with ⟨answers, lives⟩
  exact ⟨balanced_rebound, unshadowed_rebound, all, replied, answers, lives,
    loops_show_turns balanced_rebound (List.mem_singleton_self _) unshadowed_rebound replied⟩

end Walk
end RecordGraph
