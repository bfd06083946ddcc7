import RecordGraph.Proofs.Walk.Accounts

/-!
# One arena under several symbol tables

Symbol tables share an arena, and calls on one of them, evaluations and steps of walks follow one
another in any order. The owners of each live node are its places in the child lists of live nodes,
the bindings to it in all tables, and the holds that callers have on it. No call changes that, and
none leaves a node behind that it stored and that nobody owns.
-/

namespace RecordGraph

structure Workspace where
  arena : Arena
  tables : List SymbolTable

namespace Workspace

def bindingCount (workspace : Workspace) (id : NodeId) : Nat :=
  (workspace.tables.map (·.bindingCount id)).sum

/-- The owners of each live node are accounted for, and child lists hold live nodes only. The arena
is at rest, with its free slots in order and no teardown in progress, and whatever is bound or held
is an id that it has given out. -/
structure Balanced (workspace : Workspace) (holds : NodeId → Nat) : Prop where
  wellFormed : workspace.arena.WellFormed
  alive : ∀ id, ¬ workspace.arena.Dying id
  owners : ∀ id, workspace.arena.contains id = true →
    workspace.arena.ownerCount id =
      workspace.arena.occurrences id + workspace.bindingCount id + holds id
  children : ∀ parent child, child ∈ workspace.arena.children parent →
    workspace.arena.contains child = true
  bound : ∀ id, 0 < workspace.bindingCount id → workspace.arena.Issued id
  held : ∀ id, 0 < holds id → workspace.arena.Issued id

/-- A node that a call stored is owned by a place in a child list or by a binding when the call
returns, if it is still there. -/
def LeaksNothing (before after : Workspace) : Prop :=
  ∀ id, before.arena.contains id = false → after.arena.contains id = true →
    0 < after.arena.occurrences id ∨ 0 < after.bindingCount id

/-! ## Calls -/

inductive Call where
  | define (index : Nat) (key : String) (node : NodeId)
  | remove (index : Nat) (path : String)
  | clear (index : Nat)
  | fork (index : Nat)
  | replace (index : Nat) (path : String) (template : Option NodeId) (create : Bool)
  | add (index : Nat) (path : String) (node : NodeId)
  | set (index : Nat) (path : String) (value : Value) (create : Bool)
  | setAttr (index : Nat) (path attr : String) (value : Value) (create : Bool)
  | assign (index : Nat) (path : String) (value : Value)
  | evaluate (index : Option Nat) (node : NodeId)
  | evaluateExpression (index : Nat) (node : NodeId)
  | step (index : Option Nat) (frames : Frames) (limit : DepthLimit)
  | next (index : Option Nat) (frames : Frames) (limit : DepthLimit) (rounds : Nat)

def Call.nodes : Call → List NodeId
  | define _ _ node | add _ _ node => [node]
  | replace _ _ template _ => template.toList
  | step _ frames _ | next _ frames _ _ => frames.list.map (·.list)
  | _ => []

def onTable (workspace : Workspace) (index : Nat)
    (run : SymbolTable → Arena → SymbolTable × Arena) : Workspace :=
  match workspace.tables[index]? with
  | some table =>
    let (later, arena) := run table workspace.arena
    ⟨arena, workspace.tables.set index later⟩
  | none => workspace

def onOptional (workspace : Workspace) (index : Option Nat)
    (run : Option SymbolTable → Arena → Option SymbolTable × Arena) : Workspace :=
  match index with
  | some index => workspace.onTable index fun table arena =>
      let (later, arena) := run (some table) arena
      (later.getD table, arena)
  | none => { workspace with arena := (run none workspace.arena).2 }

/-- The state after a call. A copy of a table joins the tables at the end. -/
def apply (workspace : Workspace) : Call → Workspace
  | .define index key node => workspace.onTable index fun table arena => table.define arena key node
  | .remove index path => workspace.onTable index fun table arena => (table.remove arena path).2
  | .clear index => workspace.onTable index SymbolTable.clear
  | .fork index =>
    match workspace.tables[index]? with
    | some table =>
      let (copy, arena) := table.fork workspace.arena
      ⟨arena, workspace.tables ++ [copy]⟩
    | none => workspace
  | .replace index path template create => workspace.onTable index fun table arena =>
      let outcome := table.replace arena path template create
      (outcome.table, outcome.arena)
  | .add index path node => workspace.onTable index fun table arena =>
      let outcome := table.add arena path node
      (outcome.table, outcome.arena)
  | .set index path value create => workspace.onTable index fun table arena =>
      let outcome := table.set arena path value create
      (outcome.table, outcome.arena)
  | .setAttr index path attr value create => workspace.onTable index fun table arena =>
      (table, (table.setAttr arena path attr value create).2)
  | .assign index path value => workspace.onTable index fun table arena =>
      let outcome := table.assign arena path value
      (outcome.table, outcome.arena)
  | .evaluate index node => workspace.onOptional index fun table arena =>
      let effect := Evaluation.evaluate table arena node
      (effect.table, effect.arena)
  | .evaluateExpression index node => workspace.onOptional (some index) fun table arena =>
      match table with
      | some table =>
        let effect := Evaluation.evaluateExpression table arena node
        (effect.table, effect.arena)
      | none => (none, arena)
  | .step index frames limit => workspace.onOptional index fun table arena =>
      let walk := (Walk.mk arena table frames limit #[]).step.2
      (walk.table, walk.arena)
  | .next index frames limit rounds => workspace.onOptional index fun table arena =>
      match (Walk.mk arena table frames limit #[]).next rounds with
      | some (_, walk) => (walk.table, walk.arena)
      | none => (table, arena)

def Allocates (workspace : Workspace) : Prop :=
  ∀ table ∈ workspace.tables, table.registry.Allocates

/-! ## Balance as an account -/

variable {workspace : Workspace} {holds : NodeId → Nat}

theorem occurrences_of_stale (balanced : workspace.Balanced holds) {id : NodeId}
    (stale : workspace.arena.contains id = false) : workspace.arena.occurrences id = 0 := by
  by_contra listed
  obtain ⟨parent, member⟩ := Arena.exists_parent (Nat.pos_of_ne_zero listed)
  rw [balanced.children parent id member] at stale
  cases stale

theorem Balanced.accounts (balanced : workspace.Balanced holds) :
    workspace.arena.Accounts fun id => workspace.bindingCount id + holds id where
  steady := by
    refine ⟨balanced.wellFormed, fun id => ?_, List.nodup_nil, fun id => ?_⟩
    · rw [Arena.total_listed balanced.alive, Arena.standing, List.count_nil]
      cases live : workspace.arena.contains id with
      | true =>
        have count := balanced.owners id live
        simp only [↓reduceIte]
        omega
      | false =>
        have none := occurrences_of_stale balanced live
        rw [Arena.ownerCount_of_stale (Arena.live?_of_not_contains live)]
        simp [none]
    · simpa using balanced.alive id
  issued {id} positive := by
    rcases Nat.eq_zero_or_pos (workspace.bindingCount id) with zero | bound
    · exact balanced.held id (by simpa [zero] using positive)
    · exact balanced.bound id bound

theorem balanced_of_accounts
    (accounts : workspace.arena.Accounts fun id => workspace.bindingCount id + holds id) :
    workspace.Balanced holds where
  wellFormed := accounts.steady.wellFormed
  alive := accounts.steady.not_dying
  owners id live := by
    have count := accounts.steady.ownerCount_eq id
    simp only [Arena.standing, live, ↓reduceIte, List.count_nil] at count
    omega
  children _ _ member := accounts.steady.child_live member
  bound id positive := accounts.issued (Nat.add_pos_left positive _)
  held id positive := accounts.issued (Nat.add_pos_right _ positive)

theorem leaksNothing_of_follows {later : Workspace} (balanced : workspace.Balanced holds)
    (balancedLater : later.Balanced holds)
    (follows : Arena.Follows [] workspace.arena later.arena) : workspace.LeaksNothing later := by
  intro id stale live
  have new : ¬ workspace.arena.Issued id := by
    rcases follows.contains live with earlier | new
    · rw [stale] at earlier
      cases earlier
    · exact new
  have unheld : holds id = 0 := by
    by_contra some
    exact new (balanced.held id (Nat.pos_of_ne_zero some))
  have owned : later.arena.ownerCount id ≠ 0 := by
    intro zero
    obtain ⟨node, owners, found⟩ := Arena.contains_iff.mp live
    rw [Arena.ownerCount_of_live found] at zero
    subst zero
    rcases follows.unowned (Arena.isUnowned_iff.mpr ⟨node, found⟩) with earlier | member
    · obtain ⟨content, foundEarlier⟩ := Arena.isUnowned_iff.mp earlier
      exact new (Arena.issued_of_live foundEarlier)
    · cases member
  have count := balancedLater.owners id live
  omega

/-! ## Calls keep the balance -/

theorem bindingCount_set {index : Nat} {table : SymbolTable}
    (found : workspace.tables[index]? = some table) :
    ∃ others : NodeId → Nat,
      (∀ id, workspace.bindingCount id = table.bindingCount id + others id) ∧
      ∀ arena later id, Workspace.bindingCount ⟨arena, workspace.tables.set index later⟩ id =
        later.bindingCount id + others id := by
  obtain ⟨inside, rfl⟩ := List.getElem?_eq_some_iff.mp found
  refine ⟨fun id => ((workspace.tables.eraseIdx index).map (·.bindingCount id)).sum,
    fun id => ?_, fun arena later id => ?_⟩
  · have perm := (List.getElem_cons_eraseIdx_perm inside).map (·.bindingCount id)
    rw [bindingCount, ← perm.sum_eq, List.map_cons, List.sum_cons]
  · have perm := (List.set_perm_cons_eraseIdx inside later).map (·.bindingCount id)
    rw [bindingCount, perm.sum_eq, List.map_cons, List.sum_cons]

theorem balanced_of_keeps {later : Workspace} {others : NodeId → Nat} {registry : Option Registry}
    {table : Option SymbolTable} (balanced : workspace.Balanced holds)
    (keeps : Keeps others registry workspace.arena table later.arena)
    (counts : ∀ id, boundBy table id + others id = later.bindingCount id + holds id) :
    later.Balanced holds ∧ workspace.LeaksNothing later := by
  have balancedLater : later.Balanced holds :=
    balanced_of_accounts (keeps.sound.accounts.congr counts)
  exact ⟨balancedLater, leaksNothing_of_follows balanced balancedLater keeps.follows⟩

theorem balanced_same (balanced : workspace.Balanced holds) :
    workspace.Balanced holds ∧ workspace.LeaksNothing workspace := by
  refine ⟨balanced, fun id stale live => ?_⟩
  rw [stale] at live
  cases live

/-- One of the tables is sound with the arena, and the others and the callers claim the rest. -/
theorem Balanced.sound_at (balanced : workspace.Balanced holds) {index : Nat} {table : SymbolTable}
    (found : workspace.tables[index]? = some table) (allocates : table.registry.Allocates) :
    ∃ others : NodeId → Nat, Sound others (some table.registry) (some table) workspace.arena ∧
      ∀ arena later id, later.bindingCount id + others id =
        Workspace.bindingCount ⟨arena, workspace.tables.set index later⟩ id + holds id := by
  obtain ⟨others, before, after⟩ := bindingCount_set found
  refine ⟨fun id => others id + holds id, ⟨balanced.accounts.congr fun id => ?_, rfl, ?_⟩, ?_⟩
  · rw [before]
    exact Nat.add_assoc ..
  · rintro own ⟨⟩
    exact allocates
  · intro arena later id
    rw [after]
    exact (Nat.add_assoc ..).symm

theorem Balanced.sound_none (balanced : workspace.Balanced holds) :
    Sound (fun id => workspace.bindingCount id + holds id) none none workspace.arena :=
  ⟨balanced.accounts.congr fun _ => (Nat.zero_add _).symm, rfl, nofun⟩

theorem Balanced.sound (balanced : workspace.Balanced holds) {table : Option SymbolTable}
    (member : ∀ own, table = some own → own ∈ workspace.tables)
    (allocates : ∀ own, table = some own → own.registry.Allocates) :
    ∃ others, Sound others (table.map (·.registry)) table workspace.arena := by
  cases table with
  | none => exact ⟨_, balanced.sound_none⟩
  | some table =>
    rcases List.getElem?_of_mem (member table rfl) with ⟨index, found⟩
    rcases balanced.sound_at found (allocates table rfl) with ⟨others, sound, -⟩
    exact ⟨others, sound⟩

theorem balanced_onTable {index : Nat} {run : SymbolTable → Arena → SymbolTable × Arena}
    (balanced : workspace.Balanced holds) (allocates : workspace.Allocates)
    (keeps : ∀ others table, Sound others (some table.registry) (some table) workspace.arena →
      Keeps others (some table.registry) workspace.arena (some (run table workspace.arena).1)
        (run table workspace.arena).2) :
    (workspace.onTable index run).Balanced holds ∧
      workspace.LeaksNothing (workspace.onTable index run) := by
  unfold onTable
  split
  · rename_i table found
    rcases balanced.sound_at found (allocates table (List.mem_of_getElem? found)) with
      ⟨others, sound, counts⟩
    exact balanced_of_keeps balanced (keeps _ table sound) (counts _ _)
  · exact balanced_same balanced

/-- What is done by way of one table or of none keeps the balance if it keeps a table where there
was one. -/
theorem balanced_onOptional {index : Option Nat}
    {run : Option SymbolTable → Arena → Option SymbolTable × Arena}
    (balanced : workspace.Balanced holds) (allocates : workspace.Allocates)
    (keeps : ∀ others registry table, Sound others registry table workspace.arena →
      Keeps others registry workspace.arena (run table workspace.arena).1
        (run table workspace.arena).2) :
    (workspace.onOptional index run).Balanced holds ∧
      workspace.LeaksNothing (workspace.onOptional index run) := by
  cases index with
  | some index =>
    simp only [onOptional]
    apply balanced_onTable balanced allocates
    intro others table sound
    have kept := keeps others _ _ sound
    have present := kept.sound.registry_eq
    simp only
    cases same : (run (some table) workspace.arena).1 with
    | none =>
      rw [same] at present
      cases present
    | some later =>
      rw [same] at kept
      exact kept
  | none =>
    have kept := keeps _ _ _ balanced.sound_none
    have same : (run none workspace.arena).1 = none := by
      simpa using kept.sound.registry_eq
    rw [same] at kept
    exact balanced_of_keeps balanced kept fun id => Nat.zero_add _

theorem balanced_fork (balanced : workspace.Balanced holds) (index : Nat) :
    (workspace.apply (.fork index)).Balanced holds ∧
      workspace.LeaksNothing (workspace.apply (.fork index)) := by
  simp only [apply]
  split
  · rename_i table found
    obtain ⟨others, before, _⟩ := bindingCount_set found
    have accounts : workspace.arena.Accounts fun id =>
        table.bindingCount id + (others id + holds id) := by
      refine balanced.accounts.congr fun id => ?_
      rw [before]
      exact Nat.add_assoc ..
    obtain ⟨forked, follows⟩ := SymbolTable.accounts_fork accounts
    have balancedLater : Workspace.Balanced ⟨(table.fork workspace.arena).2,
        workspace.tables ++ [(table.fork workspace.arena).1]⟩ holds := by
      apply balanced_of_accounts
      refine forked.congr fun id => ?_
      have count := before id
      unfold bindingCount at count ⊢
      rw [List.map_append, List.sum_append, count]
      simp only [List.map_cons, List.map_nil, List.sum_singleton]
      omega
    exact ⟨balancedLater, leaksNothing_of_follows balanced balancedLater follows⟩
  · exact balanced_same balanced

/-- Whatever is called on a balanced state, on whatever paths, values and nodes, and whether it
succeeds or fails: the state after it is balanced, and every node that was stored on the way has an
owner or is freed. -/
theorem balanced_apply (balanced : workspace.Balanced holds) (allocates : workspace.Allocates)
    {call : Call} (issued : ∀ node ∈ call.nodes, workspace.arena.Issued node) :
    (workspace.apply call).Balanced holds ∧ workspace.LeaksNothing (workspace.apply call) := by
  cases call with
  | define index key node =>
    simp only [apply]
    refine balanced_onTable balanced allocates fun others table sound => ?_
    exact sound.define key (issued node (List.mem_singleton_self _))
  | remove index path =>
    simp only [apply]
    refine balanced_onTable balanced allocates fun others table sound => ?_
    exact SymbolTable.keeps_remove sound path
  | clear index =>
    simp only [apply]
    refine balanced_onTable balanced allocates fun others table sound => ?_
    obtain ⟨cleared, follows⟩ := SymbolTable.accounts_clear sound.accounts
    exact ⟨⟨cleared, rfl, sound.allocates⟩, follows⟩
  | fork index => exact balanced_fork balanced index
  | replace index path template create =>
    simp only [apply]
    refine balanced_onTable balanced allocates fun others table sound => ?_
    exact SymbolTable.keeps_replace sound path
      (fun node same => issued node (Option.mem_toList.mpr same)) create
  | add index path node =>
    simp only [apply]
    refine balanced_onTable balanced allocates fun others table sound => ?_
    exact SymbolTable.keeps_add sound path (issued node (List.mem_singleton_self _))
  | set index path value create =>
    simp only [apply]
    refine balanced_onTable balanced allocates fun others table sound => ?_
    exact SymbolTable.keeps_set sound path value create
  | setAttr index path attr value create =>
    simp only [apply]
    refine balanced_onTable balanced allocates fun others table sound => ?_
    exact SymbolTable.keeps_setAttr sound path attr value create
  | assign index path value =>
    simp only [apply]
    refine balanced_onTable balanced allocates fun others table sound => ?_
    exact SymbolTable.keeps_assign sound path value
  | evaluate index node =>
    simp only [apply]
    refine balanced_onOptional balanced allocates fun others registry table sound => ?_
    exact Evaluation.keeps_evaluate sound node
  | evaluateExpression index node =>
    simp only [apply]
    refine balanced_onOptional balanced allocates fun others registry table sound => ?_
    cases table with
    | some table => exact Evaluation.keeps_evaluateExpression sound node
    | none => exact .refl sound
  | step index frames limit =>
    simp only [apply]
    refine balanced_onOptional balanced allocates fun others registry table sound => ?_
    have keeps : Walk.Keeps others registry workspace.arena
        ⟨workspace.arena, table, frames, limit, #[]⟩ :=
      ⟨.refl sound, fun frame member => issued frame.list (List.mem_map_of_mem member)⟩
    exact keeps.step.state
  | next index frames limit rounds =>
    simp only [apply]
    refine balanced_onOptional balanced allocates fun others registry table sound => ?_
    have keeps : Walk.Keeps others registry workspace.arena
        ⟨workspace.arena, table, frames, limit, #[]⟩ :=
      ⟨.refl sound, fun frame member => issued frame.list (List.mem_map_of_mem member)⟩
    cases ran : (Walk.mk workspace.arena table frames limit #[]).next rounds with
    | none => exact .refl sound
    | some result => exact (keeps.next ran).state

def sample : Workspace :=
  ⟨(Arena.empty.alloc (.ofKind "t" .int)).2, [.empty "main"]⟩

theorem balanced_sample : sample.Balanced fun _ => 0 := by
  have none (id : NodeId) : sample.bindingCount id = 0 := by
    have nothing : (∅ : Bindings).toList = [] := Std.ExtTreeMap.toList_eq_nil_iff.mpr rfl
    simp [sample, bindingCount, SymbolTable.bindingCount, SymbolTable.empty, nothing]
  apply balanced_of_accounts
  refine ⟨(Arena.steady_empty.alloc _).hold fun id => ?_, fun {id} positive => ?_⟩
  · simp [Arena.standing, none]
  · simp [none] at positive

theorem allocates_sample : sample.Allocates := by
  intro table member
  rw [List.mem_singleton.mp member]
  exact Registry.allocates_standard

/-- The node is put at a place of a list that is built for it, and one filler stays beside it. -/
theorem balanced_add_sample :
    (∀ node ∈ (Call.add 0 "a[1]" ⟨0, 0⟩).nodes, sample.arena.Issued node) ∧
      (sample.apply (.add 0 "a[1]" ⟨0, 0⟩)).arena.live = 3 ∧
      (sample.apply (.add 0 "a[1]" ⟨0, 0⟩)).Balanced (fun _ => 0) ∧
      sample.LeaksNothing (sample.apply (.add 0 "a[1]" ⟨0, 0⟩)) := by
  have issued : ∀ node ∈ (Call.add 0 "a[1]" ⟨0, 0⟩).nodes, sample.arena.Issued node := by
    intro node member
    rw [List.mem_singleton.mp member]
    exact Arena.issued_of_contains (by decide +kernel)
  exact ⟨issued, by decide +kernel, balanced_apply balanced_sample allocates_sample issued⟩

end Workspace
end RecordGraph
