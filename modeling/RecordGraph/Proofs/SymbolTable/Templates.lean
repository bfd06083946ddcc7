import RecordGraph.Proofs.Path.Templates
import RecordGraph.Proofs.SymbolTable.Refusal

/-!
# Templates of refused paths

A path that is refused may have put its template at a place already. Below a node that was built for
the path the template is given up again, and it goes with the new nodes if it had no other owner.
Below a bound node it stays. A template that was put nowhere keeps its owners and its attributes,
and it may have got children if the path led through it.
-/

namespace RecordGraph

namespace SymbolTable

open RecordGraph.Path

def boundNode? (table : SymbolTable) (arena : Arena) (path : String) : Option NodeId :=
  let key := table.identifierAt arena path
  if key = "" then none else table.lookup key

/-- The place in a child list at which a path puts its template, before it is read to its end. If
the key is not bound the place is below a node that is built for it. -/
def templatePlace? (table : SymbolTable) (arena : Arena) (path : String) (template : NodeId)
    (create : Bool) : Option (NodeId × Nat) :=
  if beginsIndirection path.toList then none
  else
    match (identifier table arena (inner table arena)).run (.ofText path) with
    | .error _ _ => none
    | .ok key cursor =>
      if key = "" then none
      else
        match table.lookup key with
        | some existing => placeFrom? table create template existing ⟨cursor, arena⟩
        | none =>
          if create then
            let (fresh, stored) := freshNode table.registry (some template) key arena
            placeFrom? table create template fresh ⟨cursor, stored⟩
          else none

theorem live?_bind {table : SymbolTable} {arena : Arena} {pending : PendingBinding}
    (free : table.lookup pending.key = none) {id : NodeId} (different : id ≠ pending.node) :
    (Path.bind table arena pending).2.live? id = arena.live? id := by
  rcases bind_eq_define table arena pending with ⟨named, naming, defines⟩
  have same : named.live? id = arena.live? id := by
    rcases naming with rfl | rfl
    · rfl
    · rw [Arena.live?_modifyNode, if_neg different]
  rw [defines, define]
  simp only [free, reduceCtorEq, ↓reduceIte]
  rw [Arena.live?_retain, if_neg different, same]

section

variable {table : SymbolTable} {arena : Arena} {path : String} {template : NodeId} {create : Bool}
  {holds : NodeId → Nat} (sprouts : table.registry.Sprouts) (steady : arena.Steady [] holds)

theorem boundNode?_eq_some_iff {existing : NodeId} :
    table.boundNode? arena path = some existing ↔ ∃ key place,
      identifier table arena (inner table arena) (.ofText path) = .ok key place ∧ key ≠ "" ∧
        table.lookup key = some existing := by
  unfold boundNode? identifierAt EStateM.run
  cases read : identifier table arena (inner table arena) (.ofText path) with
  | error failure place => simp
  | ok key place => by_cases named : key = "" <;> simp [named]

theorem templatePlace?_of_error {failure : Path.Error} {place : Path.Cursor}
    (read : identifier table arena (inner table arena) (.ofText path) = .error failure place) :
    table.templatePlace? arena path template create = none := by
  unfold templatePlace? EStateM.run
  rw [read, ite_self]

theorem templatePlace?_of_ok {key : String} {place : Path.Cursor}
    (plain : beginsIndirection path.toList = false)
    (read : identifier table arena (inner table arena) (.ofText path) = .ok key place) :
    table.templatePlace? arena path template create =
      if key = "" then none
      else
        match table.lookup key with
        | some existing => placeFrom? table create template existing ⟨place, arena⟩
        | none =>
          if create then
            placeFrom? table create template (freshNode table.registry (some template) key arena).1
              ⟨place, (freshNode table.registry (some template) key arena).2⟩
          else none := by
  unfold templatePlace? EStateM.run
  rw [plain, if_neg Bool.false_ne_true, read]

omit sprouts steady in
theorem left_unput : Left arena template false arena :=
  ⟨fun _ _ _ => rfl, nofun⟩

include sprouts steady

theorem primed_of_unbound (live : arena.contains template = true)
    (plain : beginsIndirection path.toList = false)
    (unbound : table.boundNode? arena path = none) :
    PrimaryEnds table holds arena template
      (table.templatePlace? arena path template create).isSome
      (buildPrimary table create (some template) ⟨.ofText path, arena⟩) := by
  have idle (ran : ∃ place, buildPrimary table create (some template) ⟨.ofText path, arena⟩ =
        .ok (none, none) ⟨place, arena⟩)
      (nowhere : table.templatePlace? arena path template create = none) :
      PrimaryEnds table holds arena template
        (table.templatePlace? arena path template create).isSome
        (buildPrimary table create (some template) ⟨.ofText path, arena⟩) := by
    rcases ran with ⟨place, ran⟩
    rw [ran, nowhere]
    exact .settled left_unput (fun _ => rfl) fun _ => rfl
  cases read : identifier table arena (inner table arena) (.ofText path) with
  | error failure place =>
    have looked : Builder.look (fun arena => identifier table arena (inner table arena))
        ⟨.ofText path, arena⟩ = .error failure ⟨place, arena⟩ := by
      rw [Builder.look, EStateM.run, read]
    rw [buildPrimary, bind_of_error looked, templatePlace?_of_error read]
    exact left_unput
  | ok key place =>
    have looked : Builder.look (fun arena => identifier table arena (inner table arena))
        ⟨.ofText path, arena⟩ = .ok key ⟨place, arena⟩ := look_eq_ok_iff.mpr ⟨place, read, rfl⟩
    by_cases named : key = ""
    · apply idle
      · exact ⟨place, by rw [buildPrimary, bind_of_ok looked, if_pos named]; rfl⟩
      · rw [templatePlace?_of_ok plain read, if_pos named]
    · cases bound : table.lookup key with
      | some existing =>
        have found := boundNode?_eq_some_iff.mpr ⟨key, place, read, named, bound⟩
        rw [unbound] at found
        cases found
      | none =>
        cases create with
        | false =>
          apply idle
          · refine ⟨place, ?_⟩
            rw [buildPrimary, bind_of_ok looked, if_neg named]
            simp only [bound]
            rfl
          · rw [templatePlace?_of_ok plain read, if_neg named, bound]
            rfl
        | true =>
          rw [templatePlace?_of_ok plain read, if_neg named, bound]
          exact primed_buildPrimary read bound named rfl sprouts steady live

omit sprouts in
/-- What the primary leaves, the whole path leaves: if its end cannot be read, the new nodes are
freed. -/
theorem primed_buildPath {start : Path.Progress} {put : Bool}
    (ends : PrimaryEnds table holds arena template put
      (buildPrimary table create (some template) start)) :
    match buildPath table create (some template) start with
    | .ok (target, pending) later =>
      Primed table holds arena template put target.node pending later.arena
    | .error _ later => Left arena template put later.arena := by
  cases ran : buildPrimary table create (some template) start with
  | error failure later =>
    have failed : buildPath table create (some template) start = .error failure later := by
      rw [buildPath, bind_of_error ran]
    rw [ran] at ends
    rw [failed]
    exact ends
  | ok result later =>
    rcases result with ⟨node, pending⟩
    rw [ran] at ends
    have kept := preserves_buildEnd table create
      (fun name arena (primed : Primed table holds _ template put node pending arena) => by
        rcases names_internAttr name arena with ⟨names, interned⟩
        rw [interned]
        exact primed.names names) later ends
    cases closing : buildEnd table create later with
    | error failure finish =>
      rw [closing] at kept
      have failed : buildPath table create (some template) start =
          .error failure ⟨finish.cursor, abandon pending finish.arena⟩ := by
        rw [buildPath, bind_of_ok ran]
        exact bind_of_error (by rw [Builder.onFailure, closing])
      rw [failed]
      exact kept.abandoned steady
    | ok attr finish =>
      rw [closing] at kept
      have built : buildPath table create (some template) start =
          .ok (⟨node, attr⟩, pending) finish := by
        rw [buildPath, bind_of_ok ran]
        exact bind_of_ok (onFailure_eq_ok_iff.mpr closing)
      rw [built]
      exact kept

/-- A refused path whose key is not bound leaves what was there as it was, unless the template had
no owner and was put somewhere. -/
theorem left_replace_of_unbound (live : arena.contains template = true)
    (unbound : table.boundNode? arena path = none)
    (refused : (table.replace arena path (some template) create).result = none) :
    Left arena template (table.templatePlace? arena path template create).isSome
      (table.replace arena path (some template) create).arena := by
  by_cases indirect : beginsIndirection path.toList = true
  · have nowhere : table.templatePlace? arena path template create = none := by
      rw [templatePlace?, if_pos indirect]
    rw [nowhere]
    unfold replace build
    simp only [indirect, ↓reduceIte]
    cases Path.resolve table arena path <;> exact left_unput
  · have plain := Bool.eq_false_iff.mpr indirect
    have ends := primed_buildPath steady
      (@primed_of_unbound table arena path template create holds sprouts steady live plain unbound)
    generalize (table.templatePlace? arena path template create).isSome = put at ends ⊢
    unfold replace build at refused ⊢
    simp only [plain, Bool.false_eq_true, ↓reduceIte] at refused ⊢
    cases ran : buildPath table create (some template) ⟨.ofText path, arena⟩ with
    | error failure later =>
      rw [ran] at ends
      exact ends
    | ok result later =>
      rcases result with ⟨target, pending⟩
      rw [ran] at ends refused
      cases ends with
      | settled left nothing lost =>
        have none : target.node = none := by cases pending <;> exact refused
        rw [lost none]
        exact left
      | @pending key fresh _ free bears lost =>
        refine ⟨fun _ {id} present => ?_, fun given => by rw [lost refused] at given; cases given⟩
        have known := Arena.issued_of_contains present
        rw [← bears.kept (lost refused) known]
        exact live?_bind free fun (same : id = fresh) => bears.new (same ▸ known)

/-- A refused path whose key is bound leaves the template where it is. If it was put nowhere, it may
have got children and is as it was otherwise. -/
theorem spreads_replace_of_bound (live : arena.contains template = true) {existing : NodeId}
    (bound : table.boundNode? arena path = some existing) (known : arena.Issued existing)
    (held : arena.contains existing = true → 0 < holds existing)
    (refused : (table.replace arena path (some template) create).result = none) :
    (table.replace arena path (some template) create).arena.contains template = true ∧
      (table.templatePlace? arena path template create = none →
        arena.Spreads (table.replace arena path (some template) create).arena) := by
  rcases boundNode?_eq_some_iff.mp bound with ⟨key, place, read, named, found⟩
  by_cases indirect : beginsIndirection path.toList = true
  · unfold replace build
    simp only [indirect, ↓reduceIte]
    cases Path.resolve table arena path <;> exact ⟨live, fun _ => .refl arena⟩
  · have indexed := spread_buildIndices sprouts steady known held live create place
    rw [templatePlace?_of_ok (Bool.eq_false_iff.mpr indirect) read, if_neg named, found]
    refine (replace_of_refused read found refused).2 (fun later => later.contains template = true ∧
      (placeFrom? table create template existing ⟨place, arena⟩ = none → arena.Spreads later))
      ⟨live, fun _ => .refl arena⟩ indexed fun name later kept => ?_
    rcases names_internAttr name later with ⟨names, interned⟩
    rw [interned]
    exact ⟨kept.1, fun nowhere => (kept.2 nowhere).trans (.names later names)⟩

end

end SymbolTable

/-- What a refused path leaves of its template. If the key is not bound, nothing that was there is
changed, unless the template had no owner and was put at a place: then it is gone. If the key is
bound, the template is still there, and if it was put nowhere, it has the owners and all else that
it had, perhaps with more children. -/
theorem Workspace.template_of_refused {workspace : Workspace} {claims : NodeId → Nat}
    (balanced : workspace.Balanced claims) {table : SymbolTable} (member : table ∈ workspace.tables)
    (sprouts : table.registry.Sprouts) {template : NodeId} {node : Node} {owners : Nat}
    (live : workspace.arena.live? template = some (node, owners)) {path : String} {create : Bool}
    (refused : (table.replace workspace.arena path (some template) create).result = none) :
    let place := table.templatePlace? workspace.arena path template create
    let later := (table.replace workspace.arena path (some template) create).arena
    (table.boundNode? workspace.arena path = none →
      if place.isSome ∧ owners = 0 then later.contains template = false
      else ∀ id, workspace.arena.contains id = true →
        later.live? id = workspace.arena.live? id) ∧
    (table.boundNode? workspace.arena path ≠ none →
      later.contains template = true ∧
        (place = none → ∃ content, later.live? template = some (content, owners) ∧
          node.GainsChildren content)) := by
  intro place later
  have accounts := balanced.accounts
  have contained : workspace.arena.contains template = true :=
    Arena.contains_iff.mpr ⟨node, owners, live⟩
  constructor
  · intro unbound
    have left := SymbolTable.left_replace_of_unbound sprouts accounts.steady contained unbound
      refused
    have unowned : workspace.arena.isUnowned template = (owners == 0) := by
      simp [Arena.isUnowned, Arena.owners?, live]
    split
    · rename_i both
      exact left.gone both.1 (by simp [unowned, both.2])
    · rename_i spared
      exact fun id present =>
        left.kept (fun put => by simpa [unowned] using (spared ⟨put, ·⟩)) present
  · intro bound
    rcases Option.ne_none_iff_exists'.mp bound with ⟨existing, found⟩
    rcases SymbolTable.boundNode?_eq_some_iff.mp found with ⟨key, -, -, -, binding⟩
    have claimed : 0 < workspace.bindingCount existing := by
      have bindings :=
        List.le_sum_of_mem (List.mem_map_of_mem (f := (·.bindingCount existing)) member)
      exact Nat.lt_of_lt_of_le (SymbolTable.bindingCount_pos binding) bindings
    have kept := SymbolTable.spreads_replace_of_bound sprouts accounts.steady contained found
      (accounts.issued (Nat.add_pos_left claimed _))
      (fun standing => by simp only [Arena.standing, standing, ↓reduceIte]; omega) refused
    refine ⟨kept.1, fun nowhere => ?_⟩
    exact (kept.2 nowhere).node live

open SymbolTable (keyed balanced_keyed) in
/-- A template that a binding owns is put below a node that is built for another key, and is as it
was when that node is freed. -/
theorem Workspace.template_of_refused_keyed :
    keyed.2.live? ⟨0, 0⟩ = some (.ofKind "t" .int, 1) ∧
      (keyed.1.replace keyed.2 "b[0] x" (some ⟨0, 0⟩) true).result = none ∧
      keyed.1.boundNode? keyed.2 "b[0] x" = none ∧
      keyed.1.templatePlace? keyed.2 "b[0] x" ⟨0, 0⟩ true = some (⟨1, 0⟩, 0) ∧
      (keyed.1.replace keyed.2 "b[0] x" (some ⟨0, 0⟩) true).arena.live? ⟨0, 0⟩ =
        some (.ofKind "t" .int, 1) := by
  have live : keyed.2.live? ⟨0, 0⟩ = some (.ofKind "t" .int, 1) := by decide +kernel
  have refused : (keyed.1.replace keyed.2 "b[0] x" (some ⟨0, 0⟩) true).result = none := by
    decide +kernel
  have unbound : keyed.1.boundNode? keyed.2 "b[0] x" = none := by decide +kernel
  have sprouts : keyed.1.registry.Sprouts := by
    rw [keyed, SymbolTable.registry_define]
    exact Registry.direct_standard.sprouts
  have placed : keyed.1.templatePlace? keyed.2 "b[0] x" ⟨0, 0⟩ true = some (⟨1, 0⟩, 0) := by
    decide +kernel
  obtain ⟨left, -⟩ := template_of_refused balanced_keyed (List.mem_singleton_self keyed.1) sprouts
    live refused
  rw [if_neg fun both => Nat.one_ne_zero both.2] at left
  have present : keyed.2.contains ⟨0, 0⟩ = true := by decide +kernel
  exact ⟨live, refused, unbound, placed, (left unbound ⟨0, 0⟩ present).trans live⟩

/-- A template that nobody owns goes with the node that was built for the path. -/
theorem Workspace.refused_frees_template :
    let outcome := (SymbolTable.empty "main").add sample.arena "x[0] y" ⟨0, 0⟩
    sample.arena.live? ⟨0, 0⟩ = some (.ofKind "t" .int, 0) ∧ outcome.result = none ∧
      outcome.arena.contains ⟨0, 0⟩ = false :=
  ⟨by decide +kernel, by decide +kernel, by decide +kernel⟩

end RecordGraph
