import RecordGraph.Proofs.Arena.Owners
import RecordGraph.Proofs.SymbolTable.Protection
import RecordGraph.Proofs.Workspace

/-!
# Forks of symbol tables

A copy of a table takes every bound node once more, so clearing one of the two gives back just what
the copy took: the arena is again what it was. In between the two are on their own. What is called
on one of them never changes the bindings of the other, and frees no node that the other binds.
-/

namespace RecordGraph

/-! ## Taking and giving back -/

namespace SymbolTable

variable {table : SymbolTable} {arena : Arena}

theorem fork_withOwners (table : SymbolTable) (arena : Arena) :
    (table.fork arena).2 = arena.withOwners table.bindingCount := by
  have retained := Arena.retainAll_withOwners arena (fun _ => 0) (table.bindings.toList.map (·.2))
  simp only [Arena.withOwners_none, Nat.zero_add] at retained
  unfold fork bindingCount
  simp only [← List.foldl_map]
  exact retained

theorem clear_fork (owned : ∀ id, 0 < table.bindingCount id → arena.isUnowned id = false) :
    (table.clear (table.fork arena).2).2 = arena := by
  unfold clear fork
  simp only [← List.foldl_map]
  exact Arena.releaseAll_retainAll fun node member => owned node (List.count_pos_iff.mpr member)

end SymbolTable

namespace Workspace

variable {workspace : Workspace} {holds : NodeId → Nat}

/-! ## What a call leaves alone -/

def Call.index : Call → Option Nat
  | .define index _ _ | .remove index _ | .clear index | .fork index | .replace index _ _ _
  | .add index _ _ | .set index _ _ _ | .setAttr index _ _ _ _ | .assign index _ _
  | .evaluateExpression index _ => some index
  | .evaluate index _ | .step index _ _ | .next index _ _ _ => index

/-- A table is there with the same bindings, and every node that it binds is still there. -/
def Preserves (workspace : Workspace) (index : Nat) (later : Workspace) : Prop :=
  ∃ table, workspace.tables[index]? = some table ∧ later.tables[index]? = some table ∧
    ∀ key node, table.lookup key = some node → workspace.arena.contains node = true →
      later.arena.contains node = true

theorem Preserves.refl {index : Nat} (inside : index < workspace.tables.length) :
    workspace.Preserves index workspace :=
  ⟨_, List.getElem?_eq_getElem inside, List.getElem?_eq_getElem inside, fun _ _ _ live => live⟩

theorem Preserves.trans {middle later : Workspace} {index : Nat}
    (left : workspace.Preserves index middle) (right : middle.Preserves index later) :
    workspace.Preserves index later := by
  rcases left with ⟨table, before, between, kept⟩
  rcases right with ⟨_, found, after, keptLater⟩
  cases between.symm.trans found
  exact ⟨table, before, after, fun key node bound live =>
    keptLater key node bound (kept key node bound live)⟩

structure Minds (workspace : Workspace) (holds : NodeId → Nat) (mover : Option Nat)
    (later : Workspace) : Prop where
  balanced : later.Balanced holds
  allocates : later.Allocates
  length_le : workspace.tables.length ≤ later.tables.length
  preserves : ∀ index < workspace.tables.length, mover ≠ some index →
    workspace.Preserves index later

def Tends (arena : Arena) (table : Option SymbolTable) (later : Option SymbolTable × Arena) :
    Prop :=
  ∀ others registry, Sound others registry table arena →
    Keeps others registry arena later.1 later.2 ∧ Protects others arena later.2

theorem minds_arena (allocates : workspace.Allocates) {mover : Option Nat} {arena : Arena}
    (balanced : Workspace.Balanced { workspace with arena } holds)
    (protects : Protects workspace.bindingCount workspace.arena arena) :
    workspace.Minds holds mover { workspace with arena } where
  balanced := balanced
  allocates := allocates
  length_le := le_rfl
  preserves index inside _ := by
    have found := List.getElem?_eq_getElem inside
    refine ⟨_, found, found, fun key node bound live => protects node ?_ live⟩
    have counted : SymbolTable.bindingCount workspace.tables[index] node ≤
        workspace.bindingCount node :=
      List.le_sum_of_mem (List.mem_map_of_mem (List.getElem_mem inside))
    exact Nat.lt_of_lt_of_le (SymbolTable.bindingCount_pos bound) counted

/-- What is done by way of one table leaves the others alone: their bindings are claims that it has
to keep. -/
theorem minds_onTable (balanced : workspace.Balanced holds) (allocates : workspace.Allocates)
    {mover : Nat} {run : SymbolTable → Arena → SymbolTable × Arena}
    (tends : ∀ table, Tends workspace.arena (some table)
      (some (run table workspace.arena).1, (run table workspace.arena).2)) :
    workspace.Minds holds (some mover) (workspace.onTable mover run) := by
  unfold onTable
  split
  · rename_i table found
    have own := allocates table (List.mem_of_getElem? found)
    rcases balanced.sound_at found own with ⟨others, sound, counts⟩
    rcases tends table others _ sound with ⟨keeps, protects⟩
    generalize run table workspace.arena = result at keeps protects
    rcases result with ⟨later, arena⟩
    refine ⟨(balanced_of_keeps balanced keeps (counts arena later)).1, fun asked member => ?_,
      by simp, fun index inside different => ?_⟩
    · rcases List.mem_or_eq_of_mem_set member with old | rfl
      · exact allocates asked old
      · have same : asked.registry = table.registry :=
          Option.some.inj keeps.sound.registry_eq
        rwa [same]
    · have elsewhere : mover ≠ index := fun same => different (congrArg some same)
      have found := List.getElem?_eq_getElem inside
      have stays (other : SymbolTable) : (workspace.tables.set mover other)[index]? =
          some workspace.tables[index] := by
        rw [List.getElem?_set_ne elsewhere, found]
      refine ⟨_, found, stays later, fun key node bound live => protects node ?_ live⟩
      -- With an empty table in the place of the one that moves, all bindings are claims of others.
      have count := counts workspace.arena (.empty "") node
      rw [SymbolTable.bindingCount_of_empty rfl, Nat.zero_add] at count
      have counted : SymbolTable.bindingCount workspace.tables[index] node ≤
          bindingCount ⟨workspace.arena, workspace.tables.set mover (.empty "")⟩ node :=
        List.le_sum_of_mem (List.mem_map_of_mem (List.mem_of_getElem? (stays (.empty ""))))
      have positive := SymbolTable.bindingCount_pos bound
      omega
  · exact minds_arena allocates balanced (.refl _)

theorem minds_onOptional (balanced : workspace.Balanced holds) (allocates : workspace.Allocates)
    {mover : Option Nat} {run : Option SymbolTable → Arena → Option SymbolTable × Arena}
    (tends : ∀ table, Tends workspace.arena table (run table workspace.arena)) :
    workspace.Minds holds mover (workspace.onOptional mover run) := by
  cases mover with
  | some mover =>
    simp only [onOptional]
    refine minds_onTable balanced allocates fun table others registry sound => ?_
    have tended := tends (some table) others registry sound
    have present := tended.1.sound.registry_eq
    simp only
    cases same : (run (some table) workspace.arena).1 with
    | none =>
      rw [same, ← sound.registry_eq] at present
      cases present
    | some later =>
      rw [same] at tended
      exact tended
  | none =>
    rcases tends none _ _ balanced.sound_none with ⟨keeps, protects⟩
    have same : (run none workspace.arena).1 = none := by
      simpa using keeps.sound.registry_eq
    rw [same] at keeps
    have balancedLater :
        Workspace.Balanced { workspace with arena := (run none workspace.arena).2 } holds :=
      (balanced_of_keeps balanced keeps fun id => Nat.zero_add _).1
    exact minds_arena allocates balancedLater fun id bound =>
      protects id (Nat.add_pos_left bound _)

theorem minds_fork (balanced : workspace.Balanced holds) (allocates : workspace.Allocates)
    (index : Nat) : workspace.Minds holds (some index) (workspace.apply (.fork index)) := by
  have forked := (balanced_fork balanced index).1
  simp only [apply] at forked ⊢
  split at forked
  · rename_i table found
    refine ⟨forked, fun asked member => ?_, by simp, fun other inside _ => ?_⟩
    · rcases List.mem_append.mp member with old | copy
      · exact allocates asked old
      · rw [List.mem_singleton.mp copy]
        exact allocates table (List.mem_of_getElem? found)
    · have there := List.getElem?_eq_getElem inside
      refine ⟨_, there, ?_, fun key node bound live => ?_⟩
      · rw [List.getElem?_append_left inside, there]
      · rwa [SymbolTable.fork_withOwners, Arena.contains_withOwners]
  · exact minds_arena allocates balanced (.refl _)

theorem minds_apply (balanced : workspace.Balanced holds) (allocates : workspace.Allocates)
    {call : Call} (issued : ∀ node ∈ call.nodes, workspace.arena.Issued node) :
    workspace.Minds holds call.index (workspace.apply call) := by
  cases call with
  | fork index => exact minds_fork balanced allocates index
  | define index key node =>
    simp only [apply, Call.index]
    refine minds_onTable balanced allocates fun table others registry sound => ?_
    exact ⟨sound.define key (issued node (List.mem_singleton_self _)),
      protects_define sound key node⟩
  | remove index path =>
    simp only [apply, Call.index]
    refine minds_onTable balanced allocates fun table others registry sound => ?_
    exact ⟨SymbolTable.keeps_remove sound path, protects_undefine sound _⟩
  | clear index =>
    simp only [apply, Call.index]
    refine minds_onTable balanced allocates fun table others registry sound => ?_
    rcases SymbolTable.accounts_clear sound.accounts with ⟨cleared, follows⟩
    exact ⟨⟨⟨cleared, sound.registry_eq, sound.allocates⟩, follows⟩, protects_clear sound⟩
  | replace index path template create =>
    simp only [apply, Call.index]
    refine minds_onTable balanced allocates fun table others registry sound => ?_
    have given (node : NodeId) (same : template = some node) : workspace.arena.Issued node :=
      issued node (Option.mem_toList.mpr same)
    exact ⟨SymbolTable.keeps_replace sound path given create,
      SymbolTable.protects_replace sound path template create⟩
  | add index path node =>
    simp only [apply, Call.index]
    refine minds_onTable balanced allocates fun table others registry sound => ?_
    exact ⟨SymbolTable.keeps_add sound path (issued node (List.mem_singleton_self _)),
      SymbolTable.protects_add sound path node⟩
  | set index path value create =>
    simp only [apply, Call.index]
    refine minds_onTable balanced allocates fun table others registry sound => ?_
    exact ⟨SymbolTable.keeps_set sound path value create,
      SymbolTable.protects_set sound path value create⟩
  | setAttr index path attr value create =>
    simp only [apply, Call.index]
    refine minds_onTable balanced allocates fun table others registry sound => ?_
    exact ⟨SymbolTable.keeps_setAttr sound path attr value create,
      SymbolTable.protects_setAttr sound path attr value create⟩
  | assign index path value =>
    simp only [apply, Call.index]
    refine minds_onTable balanced allocates fun table others registry sound => ?_
    exact ⟨SymbolTable.keeps_assign sound path value, SymbolTable.protects_assign sound path value⟩
  | evaluate index node =>
    simp only [apply, Call.index]
    refine minds_onOptional balanced allocates fun table others registry sound => ?_
    exact ⟨Evaluation.keeps_evaluate sound node, Evaluation.protects_evaluate sound node⟩
  | evaluateExpression index node =>
    simp only [apply, Call.index]
    refine minds_onOptional balanced allocates fun table others registry sound => ?_
    cases table with
    | some table =>
      exact ⟨Evaluation.keeps_evaluateExpression sound node,
        Evaluation.protects_evaluateExpression sound node⟩
    | none => exact ⟨.refl sound, .refl _⟩
  | step index frames limit =>
    simp only [apply, Call.index]
    refine minds_onOptional balanced allocates fun table others registry sound => ?_
    have keeps : Walk.Keeps others registry workspace.arena
        ⟨workspace.arena, table, frames, limit, #[]⟩ :=
      ⟨.refl sound, fun frame member => issued frame.list (List.mem_map_of_mem member)⟩
    exact ⟨keeps.step.state, Walk.protects_step keeps⟩
  | next index frames limit rounds =>
    simp only [apply, Call.index]
    refine minds_onOptional balanced allocates fun table others registry sound => ?_
    have keeps : Walk.Keeps others registry workspace.arena
        ⟨workspace.arena, table, frames, limit, #[]⟩ :=
      ⟨.refl sound, fun frame member => issued frame.list (List.mem_map_of_mem member)⟩
    cases ran : (Walk.mk workspace.arena table frames limit #[]).next rounds with
    | none => exact ⟨.refl sound, .refl _⟩
    | some result => exact ⟨(keeps.next ran).state, Walk.protects_next keeps ran⟩

/-! ## Calls in a row -/

def run (workspace : Workspace) (calls : List Call) : Workspace :=
  calls.foldl apply workspace

theorem run_append (workspace : Workspace) (earlier calls : List Call) :
    workspace.run (earlier ++ calls) = (workspace.run earlier).run calls :=
  List.foldl_append

/-- Each call of a row is given only ids that were given out when its turn comes. -/
def GivesOut : Workspace → List Call → Prop
  | _, [] => True
  | workspace, call :: calls =>
    (∀ node ∈ call.nodes, workspace.arena.Issued node) ∧ (workspace.apply call).GivesOut calls

theorem givesOut_append {earlier calls : List Call}
    (given : workspace.GivesOut (earlier ++ calls)) :
    workspace.GivesOut earlier ∧ (workspace.run earlier).GivesOut calls := by
  induction earlier generalizing workspace with
  | nil => exact ⟨trivial, given⟩
  | cons call earlier induction =>
    rcases induction given.2 with ⟨first, rest⟩
    exact ⟨⟨given.1, first⟩, rest⟩

/-- A run leads from a balanced state to a balanced one and leaves every table alone that no call
goes by way of. -/
theorem minds_run (balanced : workspace.Balanced holds) (allocates : workspace.Allocates)
    {calls : List Call} (given : workspace.GivesOut calls) :
    (workspace.run calls).Balanced holds ∧ (workspace.run calls).Allocates ∧
      workspace.tables.length ≤ (workspace.run calls).tables.length ∧
      ∀ index < workspace.tables.length, (∀ call ∈ calls, call.index ≠ some index) →
        workspace.Preserves index (workspace.run calls) := by
  induction calls generalizing workspace with
  | nil => exact ⟨balanced, allocates, le_rfl, fun index inside _ => .refl inside⟩
  | cons call calls induction =>
    have minds := minds_apply balanced allocates given.1
    rcases induction minds.balanced minds.allocates given.2 with
      ⟨balancedLater, allocatesLater, longer, preserves⟩
    refine ⟨balancedLater, allocatesLater, minds.length_le.trans longer, ?_⟩
    intro index inside elsewhere
    rcases List.forall_mem_cons.mp elsewhere with ⟨first, rest⟩
    exact (minds.preserves index inside first).trans
      (preserves index (Nat.lt_of_lt_of_le inside minds.length_le) rest)

/-- A table and a copy of it. Clearing either of them undoes the copying: the arena is again what it
was, and the other one is the table as it was, so it reads every path and every text as before. And
whatever has been called on the two, with factories that only store new nodes, calls by way of one
of them change no binding of the other and free no node that it binds. -/
theorem fork_independent (balanced : workspace.Balanced holds)
    {index : Nat} {table : SymbolTable} (found : workspace.tables[index]? = some table)
    {mover other : Nat}
    (twins : (mover, other) ∈
      [(index, workspace.tables.length), (workspace.tables.length, index)]) :
    let forked := workspace.apply (.fork index)
    let cleared := forked.apply (.clear mover)
    forked.tables[mover]? = some table ∧ forked.tables[other]? = some table ∧
      cleared.arena = workspace.arena ∧ cleared.tables[other]? = some table ∧
      (workspace.Allocates → ∀ earlier calls, forked.GivesOut (earlier ++ calls) →
        (∀ call ∈ calls, call.index = some mover) →
        (forked.run earlier).Preserves other (forked.run (earlier ++ calls))) := by
  intro forked cleared
  have inside := (List.getElem?_eq_some_iff.mp found).1
  have copied : forked = ⟨(table.fork workspace.arena).2, workspace.tables ++ [table]⟩ := by
    simp only [forked, apply, found]
    rfl
  have members : forked.tables[mover]? = some table ∧ forked.tables[other]? = some table ∧
      mover ≠ other ∧ other < forked.tables.length := by
    simp only [copied, List.length_append, List.length_singleton]
    simp only [List.mem_cons, Prod.mk.injEq, List.not_mem_nil, or_false] at twins
    rcases twins with ⟨rfl, rfl⟩ | ⟨rfl, rfl⟩
    · exact ⟨by rw [List.getElem?_append_left inside, found], by simp, inside.ne, by omega⟩
    · exact ⟨by simp, by rw [List.getElem?_append_left inside, found], inside.ne', by omega⟩
  rcases members with ⟨first, second, different, present⟩
  have emptied : cleared = ⟨(table.clear forked.arena).2,
      forked.tables.set mover (table.clear forked.arena).1⟩ := by
    simp only [cleared, apply, onTable, first]
  refine ⟨first, second, ?_, ?_, fun allocates earlier calls given moves => ?_⟩
  · rw [emptied, copied]
    refine SymbolTable.clear_fork fun id bound => ?_
    have counted : table.bindingCount id ≤ workspace.bindingCount id :=
      List.le_sum_of_mem (List.mem_map_of_mem (List.mem_of_getElem? found))
    exact balanced.accounts.isUnowned_eq_false (by omega)
  · rw [emptied]
    simp only [List.getElem?_set_ne different, second]
  · have forking := minds_fork balanced allocates index
    rcases givesOut_append given with ⟨before, after⟩
    rcases minds_run forking.balanced forking.allocates before with
      ⟨balancedThen, allocatesThen, longer, -⟩
    have preserves := (minds_run balancedThen allocatesThen after).2.2.2 other
      (Nat.lt_of_lt_of_le present longer) fun call member same => by
        rw [moves call member] at same
        exact different (Option.some.inj same)
    rwa [run_append]

def crossing : List Call :=
  [.add 0 "a[1]" ⟨0, 0⟩, .define 0 "b" ⟨0, 0⟩, .define 0 "c" ⟨0, 0⟩]

theorem minds_crossing : (sample.run crossing).Balanced (fun _ => 0) ∧
    (sample.run crossing).Allocates := by
  have given : sample.GivesOut crossing := by
    refine ⟨?_, ?_, ?_, trivial⟩
    all_goals
      intro node member
      rw [List.mem_singleton.mp member]
      exact Arena.issued_of_contains (by decide +kernel)
  rcases minds_run balanced_sample allocates_sample given with ⟨balanced, allocates, -⟩
  exact ⟨balanced, allocates⟩

/-- While one table gives up the list and all that it binds, the child stays with the other. -/
theorem fork_independent_crossing :
    let crossed := sample.run crossing
    let forked := crossed.apply (.fork 0)
    forked.arena.ownerCount ⟨0, 0⟩ = 5 ∧ (forked.apply (.clear 0)).arena = crossed.arena ∧
      (forked.run [.remove 1 "a", .remove 0 "a", .clear 0]).arena.live = 1 ∧
      (forked.run [.remove 1 "a"]).Preserves 1
        (forked.run [.remove 1 "a", .remove 0 "a", .clear 0]) := by
  have found : (sample.run crossing).tables[0]? =
      some ((sample.run crossing).tables.get ⟨0, by decide +kernel⟩) :=
    List.getElem?_eq_getElem _
  rcases fork_independent minds_crossing.1 found
    (show (0, 1) ∈ _ by decide +kernel) with ⟨-, -, cleared, -, preserves⟩
  have moves : ∀ call ∈ [Call.remove 0 "a", .clear 0], call.index = some 0 := by simp [Call.index]
  exact ⟨by decide +kernel, cleared, by decide +kernel,
    preserves minds_crossing.2 [.remove 1 "a"] [.remove 0 "a", .clear 0]
      (by simp [GivesOut, Call.nodes]) moves⟩

end Workspace
end RecordGraph
