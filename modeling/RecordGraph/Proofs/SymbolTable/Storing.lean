import RecordGraph.Evaluation
import RecordGraph.Proofs.AttrList
import RecordGraph.Proofs.Path.Creation
import RecordGraph.Proofs.SymbolTable.Bindings

/-!
# Storing keeps the accounts

A table and an arena are sound if the arena accounts for the bindings of the table and for whatever
else is claimed, and the registry of the table only stores new nodes. Operations that store lead
from a sound state to a sound one and leave no new node without an owner, whether they succeed or
fail.
-/

namespace RecordGraph

open RecordGraph.Arena (Accounts Follows Settles)

def boundBy (table : Option SymbolTable) (id : NodeId) : Nat :=
  match table with
  | some table => table.bindingCount id
  | none => 0

structure Sound (others : NodeId → Nat) (registry : Option Registry) (table : Option SymbolTable)
    (arena : Arena) : Prop where
  accounts : arena.Accounts fun id => boundBy table id + others id
  registry_eq : table.map (·.registry) = registry
  allocates : ∀ own, registry = some own → own.Allocates

theorem Sound.registry_allocates {others : NodeId → Nat} {registry : Option Registry}
    {table : SymbolTable} {arena : Arena} (sound : Sound others registry (some table) arena) :
    table.registry.Allocates :=
  sound.allocates _ sound.registry_eq.symm

theorem Sound.settle {others : NodeId → Nat} {registry : Option Registry}
    {table : Option SymbolTable} {before after : Arena} {fresh : List NodeId}
    (sound : Sound others registry table before) (settles : Settles fresh before after) :
    Sound others registry table after :=
  ⟨sound.accounts.settle settles, sound.registry_eq, sound.allocates⟩

structure Keeps (others : NodeId → Nat) (registry : Option Registry) (before : Arena)
    (table : Option SymbolTable) (after : Arena) : Prop where
  sound : Sound others registry table after
  follows : Follows [] before after

variable {others : NodeId → Nat} {registry : Option Registry}

namespace Keeps

variable {before middle after : Arena} {table later : Option SymbolTable}

theorem refl (sound : Sound others registry table before) :
    Keeps others registry before table before :=
  ⟨sound, .refl before⟩

theorem trans (left : Keeps others registry before table middle)
    (right : Keeps others registry middle later after) : Keeps others registry before later after :=
  ⟨right.sound, left.follows.trans right.follows⟩

theorem settle (sound : Sound others registry table before) (settles : Settles [] before after) :
    Keeps others registry before table after :=
  ⟨sound.settle settles, (settles _ sound.accounts.steady).2⟩

theorem andThen (left : Keeps others registry before table middle)
    (settles : Settles [] middle after) : Keeps others registry before table after :=
  left.trans (.settle left.sound settles)

/-- A node that was stored before a change is freed after it, unless the change found an owner for
it. -/
theorem drop {id : NodeId} (sound : Sound others registry table before)
    (stored : Settles [id] before middle) (kept : Keeps others registry middle later after) :
    Keeps others registry before later (after.releaseIfUnowned id) where
  sound := (Keeps.settle kept.sound (.releaseIfUnowned after id)).sound
  follows := by
    have steady := kept.sound.accounts.steady
    have follows := (stored _ sound.accounts.steady).2.trans kept.follows
    exact (follows.trans (Settles.releaseIfUnowned after id _ steady).2).drop
      (Arena.isUnowned_releaseIfUnowned after id)

end Keeps

section

variable {table : SymbolTable} {arena : Arena}

@[simp] theorem SymbolTable.registry_define (table : SymbolTable) (arena : Arena) (key : String)
    (node : NodeId) : (table.define arena key node).1.registry = table.registry := by
  unfold define
  simp only
  split <;> rfl

theorem Sound.define (sound : Sound others registry (some table) arena) (key : String)
    {node : NodeId} (issued : arena.Issued node) :
    Keeps others registry arena (some (table.define arena key node).1)
      (table.define arena key node).2 := by
  obtain ⟨accounts, follows⟩ := SymbolTable.accounts_define sound.accounts key issued
  refine ⟨⟨accounts, ?_, sound.allocates⟩, follows⟩
  rw [Option.map_some, SymbolTable.registry_define]
  exact sound.registry_eq

theorem isUnowned_define (sound : Sound others registry (some table) arena) (key : String)
    {node : NodeId} (issued : arena.Issued node) :
    (table.define arena key node).2.isUnowned node = false := by
  have kept := sound.define key issued
  apply kept.sound.accounts.isUnowned_eq_false
  have bound := SymbolTable.bindingCount_pos (table.lookup_define arena key node)
  exact Nat.add_pos_left bound _

namespace Path

theorem bind_eq_define (table : SymbolTable) (arena : Arena) (pending : PendingBinding) :
    ∃ named, (named = arena ∨
        named = arena.modifyNode pending.node fun node => { node with name := pending.key }) ∧
      bind table arena pending = table.define named pending.key pending.node := by
  unfold bind
  simp only
  split
  · exact ⟨_, .inr rfl, rfl⟩
  · exact ⟨_, .inl rfl, rfl⟩

theorem settles_named {named : Arena} {node : NodeId} {key : String}
    (naming : named = arena ∨ named = arena.modifyNode node fun node => { node with name := key }) :
    Settles [] arena named := by
  rcases naming with rfl | rfl
  · exact .refl named
  · exact .childless arena node fun _ => rfl

theorem keeps_bind {origin : Arena} {template : Option NodeId} {pending : PendingBinding}
    (sound : Sound others registry (some table) origin)
    (issued : ∀ node, template = some node → origin.Issued node)
    (asked : Asked template origin (some pending) arena) :
    Keeps others registry origin (some (bind table arena pending).1)
      (bind table arena pending).2 := by
  obtain ⟨settles, warranted⟩ := asked
  rcases bind_eq_define table arena pending with ⟨renamed, naming, defines⟩
  rw [defines]
  have named := settles.andThen (settles_named naming)
  have follows := (named _ sound.accounts.steady).2
  have soundNow := sound.settle named
  obtain ⟨key, node, fresh⟩ := pending
  have given : renamed.Issued node := by
    cases fresh with
    | true => exact follows.given (List.mem_cons_self ..)
    | false => exact follows.issued (issued node (warranted key node rfl))
  have kept := soundNow.define key given
  have both := follows.trans kept.follows
  rw [List.append_nil] at both
  refine ⟨kept.sound, ?_⟩
  cases fresh with
  | true => exact both.drop (isUnowned_define soundNow key given)
  | false => exact both

theorem keeps_build (sound : Sound others registry (some table) arena) (text : String)
    {template : Option NodeId} (issued : ∀ node, template = some node → arena.Issued node)
    (create : Bool) :
    Keeps others registry arena (some (build table arena text template create).2.1)
      (build table arena text template create).2.2 := by
  unfold build
  split
  · exact .refl sound
  · have meets := meets_buildPath sound.registry_allocates create template arena
      ⟨Cursor.ofText text, arena⟩ (.refl arena)
    split
    · rename_i same
      rw [same] at meets
      exact .settle sound meets
    · rename_i same
      rw [same] at meets
      exact .settle sound meets.1
    · rename_i same
      rw [same] at meets
      exact keeps_bind sound issued meets

end Path

namespace SymbolTable

theorem keeps_replace (sound : Sound others registry (some table) arena) (path : String)
    {template : Option NodeId} (issued : ∀ node, template = some node → arena.Issued node)
    (create : Bool) :
    Keeps others registry arena (some (table.replace arena path template create).table)
      (table.replace arena path template create).arena := by
  have kept := Path.keeps_build sound path issued create
  unfold replace
  split
  · rename_i same
    rwa [same] at kept
  · rename_i same
    rwa [same] at kept

theorem keeps_add (sound : Sound others registry (some table) arena) (path : String) {node : NodeId}
    (issued : arena.Issued node) :
    Keeps others registry arena (some (table.add arena path node).table)
      (table.add arena path node).arena :=
  keeps_replace sound path (fun _ same => by cases same; exact issued) true

theorem keeps_remove (sound : Sound others registry (some table) arena) (path : String) :
    Keeps others registry arena (some (table.remove arena path).2.1)
      (table.remove arena path).2.2 := by
  obtain ⟨accounts, follows⟩ := accounts_undefine sound.accounts (table.identifierAt arena path)
  refine ⟨⟨accounts, ?_, sound.allocates⟩, follows⟩
  have same : (table.undefine arena (table.identifierAt arena path)).1.registry =
      table.registry := by
    unfold undefine
    split <;> rfl
  simp only [remove, Option.map_some, same]
  exact sound.registry_eq

theorem settles_destinationAttr (arena : Arena) (name : Option String) (create : Bool) :
    Settles [] arena (destinationAttr arena name create).2 := by
  unfold destinationAttr
  split
  · exact .refl arena
  · exact .refl arena
  · split
    · exact Path.settles_internAttr _ arena
    · exact .refl arena

theorem settles_store (arena : Arena) (node : NodeId) (attr : AttrId) (value : Value)
    (create : Bool) : Settles [] arena (store arena node attr value create) := by
  apply Settles.childless
  intro node
  split <;> rfl

theorem keeps_set (sound : Sound others registry (some table) arena) (path : String) (value : Value)
    (create : Bool) :
    Keeps others registry arena (some (table.set arena path value create).table)
      (table.set arena path value create).arena := by
  unfold set
  split
  · exact .refl sound
  · rename_i node name _ _
    have interned := Keeps.settle sound (settles_destinationAttr arena name create)
    generalize destinationAttr arena name create = destination at interned ⊢
    obtain ⟨attr, later⟩ := destination
    simp only at interned ⊢
    split
    · exact interned.andThen (settles_store later _ _ value create)
    · exact interned
    · exact interned
    · rename_i attr _
      split
      · have settles := sound.registry_allocates.settles_build later
          { BuildRequest.named "" with attrs := some (.single attr value) } rfl
        split
        · rename_i same
          rw [same] at settles
          exact interned.andThen settles
        · rename_i built after same
          rw [same] at settles
          have stored : Settles [built] later after := settles
          have given := (stored _ interned.sound.accounts.steady).2.given (List.mem_cons_self ..)
          have soundNow := interned.sound.settle stored
          exact interned.trans (.drop interned.sound stored (keeps_add soundNow path given))
      · exact interned

/-- A registry without factories builds a leaf from the value alone, of the kind that the value
suggests. -/
theorem build_single {registry : Registry} (direct : registry.Direct) (arena : Arena)
    (attr : AttrId) (value : Value) :
    ∃ leaf : Node, leaf.childArray = #[] ∧ leaf.attrs = some (.single attr value) ∧
      inferKind "" (some (.single attr value)) = some leaf.kind ∧
      registry.build arena { BuildRequest.named "" with attrs := some (.single attr value) } =
        (some (arena.alloc leaf).1, (arena.alloc leaf).2) := by
  have inferred : ∃ kind, inferKind "" (some (.single attr value)) = some kind := by
    unfold inferKind
    simp only [Option.bind_some, AttrList.entries_single, List.head?_cons]
    cases value <;> exact ⟨_, rfl⟩
  rcases inferred with ⟨kind, inferred⟩
  refine ⟨_, Node.childArray_ofKind "" (NodeType.ofKind kind).kind (.ofKind kind)
    (some (.single attr value)), rfl, inferred, ?_⟩
  simp [Registry.build, Registry.buildNode, BuildRequest.named, inferred, direct.buildTyped,
    Factory.direct, buildLocal]

theorem set_of_present {path : String} {name : Option String} {node : NodeId}
    {finish : Path.Cursor} {attr : AttrId} (value : Value)
    (read : table.destination arena (.ofText path) = .ok (some node, name) finish)
    (named : (destinationAttr arena name true).1 = some attr) :
    table.set arena path value true =
      ⟨some node, table, store (destinationAttr arena name true).2 node attr value true, []⟩ := by
  have read : (table.destination arena).run (.ofText path) = .ok (some node, name) finish := read
  unfold set
  simp only [read, named]

/-- Where the path of a value leads to no node, a leaf with the value is stored and put there. -/
theorem set_of_missing (direct : table.registry.Direct) {path : String} {name : Option String}
    {finish : Path.Cursor} {attr : AttrId} (value : Value)
    (read : table.destination arena (.ofText path) = .ok (none, name) finish)
    (named : (destinationAttr arena name true).1 = some attr) :
    ∃ leaf : Node, leaf.childArray = #[] ∧ leaf.attrs = some (.single attr value) ∧
      let stored := (destinationAttr arena name true).2.alloc leaf
      let outcome := table.add stored.2 path stored.1
      table.set arena path value true =
        { outcome with arena := outcome.arena.releaseIfUnowned stored.1 } := by
  rcases build_single direct (destinationAttr arena name true).2 attr value with
    ⟨leaf, childless, attrs, -, built⟩
  refine ⟨leaf, childless, attrs, ?_⟩
  have read : (table.destination arena).run (.ofText path) = .ok (none, name) finish := read
  unfold set
  simp only [read, named, ↓reduceIte, built]

theorem keeps_setAttr (sound : Sound others registry (some table) arena) (path attr : String)
    (value : Value) (create : Bool) :
    Keeps others registry arena (some table) (table.setAttr arena path attr value create).2 := by
  have settles : Settles [] arena (if create then Path.internAttr attr arena
      else (arena.names.query attr, arena)).2 := by
    split
    · exact Path.settles_internAttr attr arena
    · exact .refl arena
  have interned := Keeps.settle sound settles
  unfold setAttr
  generalize (if create then Path.internAttr attr arena else (arena.names.query attr, arena)) =
    key at interned ⊢
  obtain ⟨key, later⟩ := key
  simp only at interned ⊢
  split
  · split
    · split
      · exact interned.andThen (settles_store later _ _ value create)
      · exact interned
    · exact interned
  · exact interned

theorem keeps_assign (sound : Sound others registry (some table) arena) (path : String)
    (value : Value) :
    Keeps others registry arena (some (table.assign arena path value).table)
      (table.assign arena path value).arena :=
  keeps_set sound path _ true

end SymbolTable

end

/-! ## Evaluation -/

namespace Evaluation

variable {table : Option SymbolTable} {arena : Arena}

theorem keeps_runExpression (sound : Sound others registry table arena) (node : NodeId) :
    Keeps others registry arena (runExpression table arena node).table
      (runExpression table arena node).arena := by
  unfold runExpression
  split
  · exact .refl sound
  · split
    · exact .refl sound
    · exact SymbolTable.keeps_assign sound _ _

theorem keeps_settle {before : Arena} {effect : Effect (Except EvaluationError α)}
    (kept : Keeps others registry before effect.table effect.arena) (node : NodeId) (default : α) :
    Keeps others registry before (settle node effect default).table
      (settle node effect default).arena := by
  unfold settle
  split
  · exact kept.andThen (.childless _ node fun _ => rfl)
  · exact kept.andThen (.childless _ node fun _ => rfl)

theorem keeps_reading (sound : Sound others registry table arena) (inquiry : Inquiry α) :
    Keeps others registry arena (reading table arena inquiry).table
      (reading table arena inquiry).arena := by
  unfold reading
  split <;> exact .refl sound

theorem keeps_evaluateConditional (sound : Sound others registry table arena) (node : NodeId) :
    Keeps others registry arena (evaluateConditional table arena node).table
      (evaluateConditional table arena node).arena := by
  unfold evaluateConditional
  split
  · exact keeps_settle (keeps_reading sound _) node none
  · exact keeps_settle (keeps_reading sound _) node none
  · exact .refl sound

theorem keeps_evaluate (sound : Sound others registry table arena) (node : NodeId) :
    Keeps others registry arena (evaluate table arena node).table
      (evaluate table arena node).arena := by
  unfold evaluate
  split
  · exact keeps_settle (keeps_runExpression sound node) node ()
  · exact keeps_evaluateConditional sound node

theorem keeps_evaluateExpression {table : SymbolTable}
    (sound : Sound others registry (some table) arena) (node : NodeId) :
    Keeps others registry arena (evaluateExpression table arena node).table
      (evaluateExpression table arena node).arena := by
  unfold evaluateExpression
  split
  · exact keeps_settle (keeps_runExpression sound node) node ()
  · exact .refl sound

end Evaluation

end RecordGraph
