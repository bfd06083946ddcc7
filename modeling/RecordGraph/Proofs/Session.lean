import RecordGraph.Proofs.Arena.Owners
import RecordGraph.Proofs.Document.Rooted
import RecordGraph.Proofs.Walk.Upholding
import RecordGraph.Session

/-!
# Sessions stay tidy

A command on a session makes a symbol table of its own and gives up its bindings in the end. The
root has one owner, the session, and every other node has as many as there are places for it in
child lists; there is nothing in the arena but what hangs from the root. So it is after loading,
and after each command, whatever the document makes a walk do.

A command that only reads leaves the arena as it was, with the count of every node.
-/

namespace RecordGraph

/-! ## Commands that only read -/

def BindsOver (arena : Arena) (state : SymbolTable × Arena) : Prop :=
  state.2 = arena.withOwners state.1.bindingCount

namespace BindsOver

variable {arena : Arena} {state : SymbolTable × Arena}

theorem of_empty {table : SymbolTable} (empty : table.bindings = ∅) :
    BindsOver arena (table, arena) := by
  have none : table.bindingCount = fun _ => 0 := funext (SymbolTable.bindingCount_of_empty empty)
  rw [BindsOver, none, Arena.withOwners_none]

variable (owned : ∀ id, arena.isUnowned id = false) (binds : BindsOver arena state)
include owned binds

theorem define (key : String) (node : NodeId) :
    BindsOver arena (state.1.define state.2 key node) := by
  rcases state with ⟨table, later⟩
  unfold SymbolTable.define
  simp only
  split
  · exact binds
  · rw [show later = _ from binds, Arena.retain_withOwners]
    split
    · rename_i old found
      -- the new node got its owner before the old one lost it; they may be the same
      apply Arena.release_withOwners (owned old)
      intro other
      have exchanged :=
        @SymbolTable.bindingCount_exchange table (fun _ => 0) key old found node other
      simpa using exchanged
    · rename_i missing
      have counts (other : NodeId) : table.bindingCount other + [node].count other =
          SymbolTable.bindingCount
            { table with bindings := table.bindings.insert key node } other := by
        rw [SymbolTable.bindingCount_insert, SymbolTable.bindingCount_erase_missing missing]
      exact congrArg arena.withOwners (funext counts)

theorem bindNamed (node : NodeId) : BindsOver arena (Session.bindNamed state node) := by
  unfold Session.bindNamed
  simp only
  split
  · exact binds
  · exact binds.define owned _ node

theorem bindAll (nodes : List NodeId) :
    BindsOver arena (nodes.foldl Session.bindNamed state) := by
  induction nodes generalizing state with
  | nil => exact binds
  | cons node nodes induction => exact induction (binds.bindNamed owned node)

theorem clear : (state.1.clear state.2).2 = arena := by
  unfold SymbolTable.clear
  simp only [← List.foldl_map, show state.2 = _ from binds]
  exact Arena.releaseAll_withOwners fun node _ => owned node

end BindsOver

namespace Session

variable {session : Session}

theorem symbols_eq (session : Session) (robust : Bool) :
    session.symbols robust =
      (session.root :: (session.arena.children session.root).toList).foldl bindNamed
        ({ SymbolTable.empty (session.arena.name session.root) with
            robust
            registry := session.registry }, session.arena) := by
  unfold symbols
  simp only [← Array.foldl_toList]
  rfl

theorem bindsOver_symbols (owned : ∀ id, session.arena.isUnowned id = false) (robust : Bool) :
    BindsOver session.arena (session.symbols robust) := by
  rw [symbols_eq]
  exact (BindsOver.of_empty rfl).bindAll owned _

theorem query_session (owned : ∀ id, session.arena.isUnowned id = false) (paths : List String)
    (robust : Bool) : (session.query paths robust).session = session := by
  have cleared := (bindsOver_symbols owned robust).clear owned
  unfold query
  simp only [cleared]

/-! ## Walks -/

section

variable {others : NodeId → Nat} {registry : Option Registry} {arena : Arena}
  {table : SymbolTable}

theorem keeps_bindNamed (sound : Sound others registry (some table) arena) {node : NodeId}
    (issued : arena.Issued node) :
    Keeps others registry arena (some (bindNamed (table, arena) node).1)
      (bindNamed (table, arena) node).2 := by
  unfold bindNamed
  simp only
  split
  · exact .refl sound
  · exact sound.define _ issued

theorem upholds_bindNamed (sound : Sound others registry (some table) arena)
    (acyclic : arena.Acyclic) (node : NodeId) :
    Upholds others arena (bindNamed (table, arena) node).2 := by
  unfold bindNamed
  simp only
  split
  · exact .refl acyclic
  · exact upholds_define sound acyclic _ node

theorem bindAll_keeps (sound : Sound others registry (some table) arena) (acyclic : arena.Acyclic)
    (nodes : List NodeId) (issued : ∀ node ∈ nodes, arena.Issued node) :
    Keeps others registry arena (some (nodes.foldl bindNamed (table, arena)).1)
        (nodes.foldl bindNamed (table, arena)).2 ∧
      Upholds others arena (nodes.foldl bindNamed (table, arena)).2 := by
  induction nodes generalizing table arena with
  | nil => exact ⟨.refl sound, .refl acyclic⟩
  | cons node nodes induction =>
    have kept := keeps_bindNamed sound (issued node (List.mem_cons_self ..))
    have upheld := upholds_bindNamed sound acyclic node
    rcases induction kept.sound upheld.acyclic fun other member =>
      kept.follows.issued (issued other (List.mem_cons_of_mem _ member)) with ⟨rest, restUpheld⟩
    exact ⟨kept.trans rest, upheld.trans restUpheld⟩

end

structure Tidy (session : Session) : Prop
    extends session.arena.Tidy ([session.root].count ·) where
  registry_eq : session.registry = .standard

theorem Tidy.sound (tidy : session.Tidy) {table : SymbolTable} (empty : table.bindings = ∅)
    (standard : table.registry = .standard) :
    Sound ([session.root].count ·) (some .standard) (some table) session.arena where
  accounts := (Arena.Accounts.of_steady tidy.steady).congr fun id => by
    rw [boundBy, SymbolTable.bindingCount_of_empty empty, Nat.zero_add]
  registry_eq := by rw [Option.map_some, standard]
  allocates own same := Option.some.inj same ▸ Registry.allocates_standard

theorem Tidy.symbols (tidy : session.Tidy) (robust : Bool) :
    Keeps ([session.root].count ·) (some .standard) session.arena
        (some (session.symbols robust).1) (session.symbols robust).2 ∧
      Upholds ([session.root].count ·) session.arena (session.symbols robust).2 := by
  rw [symbols_eq]
  apply bindAll_keeps (tidy.sound rfl tidy.registry_eq) tidy.acyclic
  intro node member
  rcases List.mem_cons.mp member with rfl | top
  · exact Arena.issued_of_contains tidy.contains_root
  · exact Arena.issued_of_contains (tidy.steady.child_live (Array.mem_toList_iff.mp top))

theorem Tidy.clear (tidy : session.Tidy) {table : SymbolTable} {arena : Arena}
    (keeps : Keeps ([session.root].count ·) (some .standard) session.arena (some table) arena)
    (upholds : Upholds ([session.root].count ·) session.arena arena) :
    { session with arena := (table.clear arena).2 }.Tidy := by
  rcases SymbolTable.accounts_clear keeps.sound.accounts with ⟨accounts, follows⟩
  have upheld := upholds.trans (upholds_clear keeps.sound upholds.acyclic)
  have claims : (table.clear arena).2.Accounts ([session.root].count ·) :=
    accounts.congr fun id => by rw [SymbolTable.bindingCount_of_empty rfl, Nat.zero_add]
  -- the session is an owner of the root all the while
  have rooted (id : NodeId) (claimed : 0 < [session.root].count id) :
      (table.clear arena).2.contains id = true := by
    have same : id = session.root := List.mem_singleton.mp (List.count_pos_iff.mp claimed)
    exact upheld.held id claimed (same ▸ tidy.contains_root)
  exact ⟨⟨claims.steady_of_live rooted, upheld.acyclic,
    (keeps.follows.trans follows).owned tidy.owned⟩, tidy.registry_eq⟩

theorem Tidy.walk (tidy : session.Tidy) {robust : Bool} {rounds : Nat} {report : Report}
    (ran : session.walk robust rounds = some report) : report.session.Tidy := by
  rcases tidy.symbols robust with ⟨keeps, upholds⟩
  unfold Session.walk at ran
  generalize session.symbols robust = state at keeps upholds ran
  rcases state with ⟨table, arena⟩
  simp only at keeps upholds ran
  rcases Option.map_eq_some_iff.mp ran with ⟨⟨text, later⟩, folded, rfl⟩
  have start := Walk.keeps_start keeps session.root .frames
  have direct (own : Registry) (same : some Registry.standard = some own) : own.Direct :=
    Option.some.inj same ▸ Registry.direct_standard
  rcases Walk.fold_upholds direct start upholds.acyclic folded with ⟨kept, upheld⟩
  rcases later with ⟨laterArena, laterTable, frames, limit, failures⟩
  cases laterTable with
  | none => exact absurd kept.state.sound.registry_eq nofun
  | some laterTable => exact tidy.clear kept.state (upholds.trans upheld)

/-! ## Loading -/

theorem tidy_retain_alloc {node : Node} (childless : node.childArray = #[]) :
    ((Arena.empty.alloc node).2.retain (Arena.empty.alloc node).1).Tidy
      ([(Arena.empty.alloc node).1].count ·) := by
  have placed := Arena.placed_alloc Arena.steady_empty.wellFormed childless
  have stored := Arena.steady_empty.alloc node
  generalize (Arena.empty.alloc node).1 = root at placed stored ⊢
  generalize (Arena.empty.alloc node).2 = arena at placed stored ⊢
  have retained := stored.retain (Arena.contains_iff.mpr ⟨node, 0, placed.live?_same⟩)
  refine ⟨retained.hold fun id => ?_, ?_, fun id => ?_⟩
  · rw [List.count_nil, Nat.add_comm]
  · exact (Arena.acyclic_empty.sheds (placed.sheds childless)).sheds (Arena.sheds_retain arena root)
  · rw [Bool.eq_false_iff]
    intro unowned
    rcases Arena.isUnowned_iff.mp unowned with ⟨other, found⟩
    rw [Arena.live?_retain] at found
    split at found
    · rw [placed.live?_same] at found
      cases found
    · rename_i different
      rw [placed.live?_other different] at found
      cases found

theorem tidy_load (name source origin : String) (options : Document.Options) :
    (load name source origin options).Tidy := by
  have rooted := tidy_retain_alloc (Node.childArray_ofKind name .base (.ofKind .base) none)
  have tidy :=
    Document.tidy_load Registry.direct_standard rooted rooted.contains_root source options
  exact ⟨tidy, rfl⟩

/-! ## Commands -/

inductive Command where
  | query (paths : List String) (robust : Bool)
  | walk (robust : Bool) (rounds : Nat)
  | dump
  | outline

def Command.reads : Command → Bool
  | .walk _ _ => false
  | .query _ _ | .dump | .outline => true

def after? (session : Session) : Command → Option Session
  | .query paths robust => some (session.query paths robust).session
  | .walk robust rounds => (session.walk robust rounds).map (·.session)
  | .dump | .outline => some session

def run? (session : Session) (commands : List Command) : Option Session :=
  commands.foldlM after? session

/-- What the counts and the live nodes of a session are: the session is the one owner of the root,
each other node is owned by its places in child lists, and whatever is live hangs from the root. -/
structure Intact (session : Session) : Prop where
  root_owners : session.arena.ownerCount session.root = 1
  owners : ∀ id, session.arena.contains id = true → id ≠ session.root →
    session.arena.ownerCount id = session.arena.occurrences id
  live : ∀ id, session.arena.contains id = true ↔
    id = session.root ∨ session.arena.Below session.root id

theorem Tidy.intact (tidy : session.Tidy) : session.Intact where
  root_owners := tidy.ownerCount_root
  owners _ _ other := tidy.ownerCount_other other
  live := tidy.contains_iff_below

theorem Tidy.after?_reads (tidy : session.Tidy) {command : Command} (reads : command.reads = true) :
    session.after? command = some session := by
  cases command with
  | query paths robust => exact congrArg some (query_session tidy.owned paths robust)
  | walk robust rounds => cases reads
  | dump => rfl
  | outline => rfl

theorem Tidy.after? (tidy : session.Tidy) {command : Command} {later : Session}
    (ran : session.after? command = some later) : later.Tidy := by
  cases command with
  | walk robust rounds =>
    rcases Option.map_eq_some_iff.mp ran with ⟨report, walked, rfl⟩
    exact tidy.walk walked
  | query | dump | outline =>
    rw [tidy.after?_reads rfl] at ran
    cases ran
    exact tidy

theorem Tidy.run? (tidy : session.Tidy) {commands : List Command} {later : Session}
    (ran : session.run? commands = some later) : later.Tidy := by
  induction commands generalizing session with
  | nil =>
    cases ran
    exact tidy
  | cons command commands induction =>
    rcases Option.bind_eq_some_iff.mp ran with ⟨middle, first, rest⟩
    exact induction (tidy.after? first) rest

/-- Whatever was loaded and whatever commands were given: the counts are right, nothing is left
over, and a command that only reads changes nothing at all. -/
theorem intact_run {name source origin : String} {options : Document.Options}
    {commands : List Command} {session : Session}
    (ran : (load name source origin options).run? commands = some session) :
    session.Intact ∧
      ∀ command : Command, command.reads = true → session.after? command = some session :=
  have tidy := (tidy_load name source origin options).run? ran
  ⟨tidy.intact, fun _ => tidy.after?_reads⟩

def stretching : String :=
  "m==5\nx=list\nx=list\ni=loop,start=0,stop=1 \x7b\n" ++
    "  e=expr,op=\"+\",var1=\"$i\",var2=1,result=\"x[2]\"\n\x7d\n"

/-- The walk adds three nodes to the six that were loaded, and the queries none. -/
theorem intact_run_stretching :
    ∃ session, (load "m" stretching "m" ⟨true⟩).run?
        [.query ["m", "x[2]"] false, .walk false 20, .query ["x[2]"] true, .outline] = some session ∧
      session.arena.live = 9 ∧ session.Intact ∧
      ∀ command : Command, command.reads = true → session.after? command = some session := by
  have ends : ((load "m" stretching "m" ⟨true⟩).run?
      [.query ["m", "x[2]"] false, .walk false 20, .query ["x[2]"] true, .outline]).map
        (·.arena.live) = some 9 := by
    decide +kernel
  rcases Option.map_eq_some_iff.mp ends with ⟨session, ran, nodes⟩
  exact ⟨session, ran, nodes, intact_run ran⟩

end Session
end RecordGraph
