import RecordGraph.Proofs.Path.Parts
import RecordGraph.Proofs.Path.Persistence
import RecordGraph.Proofs.Workspace

/-!
# Reading and creating agree

What a path is asked to bring into being is what it names afterwards, and what it names already is
left as it is.
-/

namespace RecordGraph

namespace Path

open Builder (look)

/-! ## What was missing is there afterwards -/

section Missing

variable {table : SymbolTable} (allocates : table.registry.Allocates) {arena after : Arena}
  {holds : NodeId → Nat} (steady : arena.Steady [] holds)

theorem Richer.of_enriched {later : SymbolTable} {grown : Arena}
    (richer : Richer table after later grown) (enriched : arena.Enriched after) :
    Richer table arena later grown :=
  { richer with arena := enriched.trans richer.arena }

include allocates steady

theorem enriched_fillUp (template : Option NodeId) {parent : NodeId} (index rounds : Nat)
    (live : arena.contains parent = true) :
    arena.Enriched (fillUp table.registry template parent index rounds arena) := by
  induction rounds generalizing arena with
  | zero => exact .refl arena
  | succ rounds induction =>
    unfold fillUp
    split
    · exact .refl arena
    · have gained := gainsUnowned_freshNode allocates template "" steady.wellFormed
      have settled := settles_freshNode allocates template "" arena holds steady
      generalize freshNode table.registry template "" arena = fresh at gained settled
      rcases fresh with ⟨filler, later⟩
      rcases Arena.isUnowned_iff.mp gained.unowned with ⟨node, found⟩
      have stillLive := gained.enriched.contains live
      have pushed : (later.pushChild parent filler).1 = true := by
        simp [Arena.pushChild, stillLive, Arena.canLink, found]
      have linked := Arena.Enriched.pushChild later parent filler
      have steadyLater := (Arena.Settles.pushChild later parent filler holds settled.1).1
      simp only [pushed, ↓reduceIte]
      exact gained.enriched.trans
        (linked.trans (induction steadyLater (linked.contains stillLive)))

/-- A child that is found where room was made stands in the list of a node that was there. -/
theorem enriched_childAt {parent child : NodeId} (issued : arena.Issued parent) {index : Nat}
    {start finish : Cursor}
    (ran : childAt table true none parent index ⟨start, arena⟩ = .ok (some child) ⟨finish, after⟩) :
    arena.Enriched after ∧ finish = start ∧ after.child? parent index = some child := by
  rcases childAt_cases ran with ⟨ended, found, rfl | rfl⟩
  · exact ⟨.refl _, ended, found⟩
  · have room := Arena.Settles.ensureChildren arena parent
    have filled := room.trans (settles_fillUp allocates none parent index
      (index + 1 - arena.childCount parent) (arena.ensureChildren parent))
    have live : arena.contains parent = true := by
      rcases (filled holds steady).2.contains (Arena.contains_of_child found) with live | new
      · exact live
      · exact absurd issued new
    have ensured := Arena.Enriched.ensureChildren arena parent
    exact ⟨ensured.trans (enriched_fillUp allocates (room holds steady).1 none index _
      (ensured.contains live)), ended, found⟩

/-- Indices that lead to a node while room is made lead there in whatever the state grows to. -/
theorem indices_of_followIndices {rounds : List Char} {current : Option NodeId} {node : NodeId}
    {place last : Option (NodeId × Nat)} {start finish : Cursor}
    (issued : ∀ parent, current = some parent → arena.Issued parent)
    (ran : followIndices table true none rounds current place ⟨start, arena⟩ =
      .ok (some node, last) ⟨finish, after⟩) :
    arena.Enriched after ∧ ∀ {later grown}, Richer table after later grown →
      indices later grown (inner later grown) rounds current start = .ok (some node) finish := by
  induction rounds generalizing arena current place start with
  | nil =>
    cases ran
    exact ⟨.refl _, fun _ => rfl⟩
  | cons _ rounds induction =>
    cases current with
    | none => cases followIndices_none ran
    | some parent =>
      by_cases bracket : start.rest.head? = some '['
      · rcases (followIndices_cons_eq_ok_iff bracket).mp ran with
          ⟨opened, index, indexed, child, reached, roomy, closed, advanced, read, found, ended,
            followed⟩
        rcases enriched_childAt allocates steady (issued parent rfl) found with
          ⟨enriched, rfl, stands⟩
        have settled := settling_childAt allocates true none parent index arena [] ⟨reached, arena⟩
          (.refl arena)
        rw [found] at settled
        have steadyRoomy := (settled holds steady).1
        have issuedChild : roomy.Issued child :=
          Arena.issued_of_contains (steadyRoomy.child_live (Array.mem_of_getElem? stands))
        rcases induction steadyRoomy (fun _ same => by cases same; exact issuedChild) followed with
          ⟨enrichedMore, onward⟩
        refine ⟨enriched.trans enrichedMore, fun {later grown} richer => ?_⟩
        -- the index was read before there was room, and the bracket behind it afterwards
        have richerRoomy := richer.of_enriched enrichedMore
        have richerHere := richerRoomy.of_enriched enriched
        have readAgain := persistsAt_indexValue richerHere (persistsAt_inner richerHere)
          (.nil table) _ _ read rfl
        have endedAgain := persistsAt_expect richerRoomy (.nil table) ']' .unclosedIndex _ _
          ended trivial
        rw [Cursor.followedBy_nil, Cursor.followedBy_nil] at readAgain endedAgain
        exact (indices_cons_eq_ok_iff bracket).mpr ⟨opened, index, reached, closed, child, advanced,
          readAgain, endedAgain, richerRoomy.arena.child stands, onward richer⟩
      · rw [followIndices_of_no_bracket bracket] at ran
        cases ran
        exact ⟨.refl _, fun _ => indices_of_no_bracket bracket⟩

/-- The node that a primary is given is the one it names in whatever the state grows to, once the
binding is made that the primary asks for. -/
theorem primary_of_buildPrimary {node : NodeId} {pending : Option PendingBinding}
    {start finish : Cursor}
    (issued : ∀ key origin, table.lookup key = some origin → arena.Issued origin)
    (ran : buildPrimary table true none ⟨start, arena⟩ = .ok (some node, pending) ⟨finish, after⟩) :
    arena.Enriched after ∧ (∀ wanted ∈ pending, table.lookup wanted.key = none) ∧
      ∀ {later grown}, Richer table after later grown →
        (∀ wanted ∈ pending, later.lookup wanted.key = some wanted.node) →
          primary later grown (inner later grown) start = .ok (some node) finish := by
  unfold buildPrimary at ran
  rcases bind_eq_ok_iff.mp ran with ⟨key, _, looked, ran⟩
  rcases look_eq_ok_iff.mp looked with ⟨place, read, rfl⟩
  have readAgain {later grown} (richer : Richer table arena later grown) (named : key ≠ "") :
      identifier later grown (inner later grown) start = .ok key place := by
    have again := persistsAt_identifier richer (persistsAt_inner richer) (.nil table) _ _ read named
    rwa [Cursor.followedBy_nil, Cursor.followedBy_nil] at again
  split at ran
  · cases ran
  · rename_i named
    cases bound : table.lookup key with
    | some origin =>
      rw [bound] at ran
      rcases bind_eq_ok_iff.mp ran with ⟨addressed, _, built, ⟨⟩⟩
      rcases buildIndices_eq_ok_iff.mp built with ⟨last, followed⟩
      have known (parent : NodeId) (same : some origin = some parent) : arena.Issued parent :=
        issued key parent (bound.trans same)
      rcases indices_of_followIndices allocates steady known followed with ⟨enriched, again⟩
      refine ⟨enriched, nofun, fun richer _ => ?_⟩
      refine bind_eq_ok_iff.mpr ⟨_, _, readAgain (richer.of_enriched enriched) named, ?_⟩
      rw [if_neg named, richer.lookup bound]
      exact bind_eq_ok_iff.mpr ⟨_, _, rfl, again richer⟩
    | none =>
      rw [bound, if_pos rfl] at ran
      rcases bind_eq_ok_iff.mp ran with ⟨fresh, _, made, ran⟩
      rcases change_eq_ok_iff.mp made with ⟨rfl, rfl⟩
      rcases bind_eq_ok_iff.mp ran with ⟨addressed, _, built, ⟨⟩⟩
      rcases buildIndices_eq_ok_iff.mp (onFailure_eq_ok_iff.mp built) with ⟨last, followed⟩
      have gained := gainsUnowned_freshNode allocates none key steady.wellFormed
      have settled := settles_freshNode allocates none key arena holds steady
      generalize freshNode table.registry none key arena = stored at gained settled followed
      have known (parent : NodeId) (same : some stored.1 = some parent) :
          stored.2.Issued parent := by
        cases same
        exact settled.2.given (List.mem_singleton_self _)
      rcases indices_of_followIndices allocates settled.1 known followed with ⟨enriched, again⟩
      refine ⟨gained.enriched.trans enriched, ?_, fun richer bindings => ?_⟩
      · rintro _ ⟨⟩
        exact bound
      · have richerHere := richer.of_enriched (gained.enriched.trans enriched)
        refine bind_eq_ok_iff.mpr ⟨_, _, readAgain richerHere named, ?_⟩
        rw [if_neg named, bindings _ rfl]
        exact bind_eq_ok_iff.mpr ⟨_, _, rfl, again richer⟩

end Missing

/-! ## What a path brought into being -/

section Brought

variable {table : SymbolTable} {arena : Arena}

open SymbolTable (destinationAttr)

theorem names_internAttr (name : String) (arena : Arena) :
    ∃ names, (internAttr name arena).2 = { arena with names } := by
  unfold internAttr
  split
  · rename_i names _
    exact ⟨names, rfl⟩
  · exact ⟨arena.names, rfl⟩

theorem names_destinationAttr (arena : Arena) (name : Option String) {create : Bool} :
    ∃ names, (destinationAttr arena name create).2 = { arena with names } := by
  unfold destinationAttr
  split
  · exact ⟨arena.names, rfl⟩
  · exact ⟨arena.names, rfl⟩
  · split
    · exact names_internAttr _ arena
    · exact ⟨arena.names, rfl⟩

theorem enriched_internAttr (name : String) (arena : Arena) :
    arena.Enriched (internAttr name arena).2 := by
  unfold internAttr
  split
  · rename_i given
    exact .names arena (NameTable.query_of_intern given)
  · exact .refl arena

theorem enriched_destinationAttr (arena : Arena) (name : Option String) :
    arena.Enriched (destinationAttr arena name true).2 := by
  unfold destinationAttr
  split
  · exact .refl arena
  · exact .refl arena
  · exact enriched_internAttr _ arena

theorem destinationAttr_again {name : Option String} {grown : Arena}
    (names : grown.names = (destinationAttr arena name true).2.names) :
    destinationAttr grown name true = ((destinationAttr arena name true).1, grown) := by
  unfold destinationAttr at names ⊢
  split at names
  · rfl
  · rfl
  · simp only [↓reduceIte, internAttr] at names ⊢
    split at names
    · rename_i attr interned given
      have names : grown.names = interned := names
      rw [names, NameTable.intern_of_intern given, ← names]
    · rename_i refused
      have names : grown.names = arena.names := names
      rw [names, refused]

theorem richer_define {key : String} {node : NodeId} (free : table.lookup key = none) :
    Richer table arena (table.define arena key node).1 (table.define arena key node).2 ∧
      (table.define arena key node).2.names = arena.names := by
  unfold SymbolTable.define
  simp only [free]
  refine ⟨⟨rfl, rfl, fun {asked owner} found => ?_, .retain arena node⟩, rfl⟩
  have different : asked ≠ key := by
    rintro rfl
    rw [free] at found
    cases found
  simpa [SymbolTable.lookup, Std.ExtTreeMap.getElem?_insert, Ne.symm different] using found

theorem richer_bind {wanted : PendingBinding} (free : table.lookup wanted.key = none) :
    Richer table arena (bind table arena wanted).1 (bind table arena wanted).2 ∧
      (bind table arena wanted).1.lookup wanted.key = some wanted.node ∧
        (bind table arena wanted).2.names = arena.names := by
  rcases bind_eq_define table arena wanted with ⟨named, naming, defines⟩
  have renamed : arena.Enriched named ∧ named.names = arena.names := by
    rcases naming with rfl | rfl
    · exact ⟨.refl named, rfl⟩
    · exact ⟨.modifyNode arena wanted.node fun _ => ⟨id, id⟩, rfl⟩
  have defined := @richer_define table named wanted.key wanted.node free
  rw [defines]
  exact ⟨defined.1.of_enriched renamed.1, table.lookup_define named _ _, defined.2.trans renamed.2⟩

theorem identifier_empty_of_plain {later : SymbolTable} {grown : Arena}
    {below above : Bool → Reader Target} {start finish : Cursor}
    (plain : ¬ ['$', '('] <+: start.rest)
    (ran : identifier table arena below start = .ok "" finish) :
    identifier later grown above start = .ok "" finish := by
  unfold identifier at ran ⊢
  rcases bind_eq_ok_iff.mp ran with ⟨next, place, looked, ran⟩
  refine bind_eq_ok_iff.mpr ⟨next, place, looked, ?_⟩
  split at ran
  · exact ran
  · rcases bind_eq_ok_iff.mp ran with ⟨_, opened, advanced, ran⟩
    refine bind_eq_ok_iff.mpr ⟨_, opened, advanced, ?_⟩
    rcases bind_eq_ok_iff.mp ran with ⟨second, behind, lookedAgain, ran⟩
    refine bind_eq_ok_iff.mpr ⟨second, behind, lookedAgain, ?_⟩
    have noParen : second ≠ some '(' := by
      rintro rfl
      rcases start with ⟨position, _ | ⟨first, _ | ⟨paren, rest⟩⟩⟩
      · cases looked
      · cases looked
        cases advanced
        cases lookedAgain
      · cases looked
        cases advanced
        cases lookedAgain
        exact plain ⟨rest, rfl⟩
    rw [if_neg noParen] at ran ⊢
    exact ran
  · exact ran

/-- The name of an attribute stays as it is where the state grows, unless it is computed and comes
out empty. -/
theorem attrName_richer {later : SymbolTable} {grown : Arena}
    (richer : Richer table arena later grown) {start finish : Cursor} {name : Option String}
    (ran : attrName table arena start = .ok name finish)
    (named : name = some "" → ¬ ['.', '$', '('] <+: start.rest) :
    attrName later grown start = .ok name finish := by
  by_cases point : start.rest.head? = some '.'
  · rcases (attrName_of_point point).mp ran with ⟨text, read, rfl⟩
    refine (attrName_of_point point).mpr ⟨text, ?_, rfl⟩
    by_cases empty : text = ""
    · subst empty
      refine identifier_empty_of_plain (fun computed => named rfl ?_) read
      rcases start with ⟨position, _ | ⟨first, rest⟩⟩
      · cases point
      · cases point
        rcases computed with ⟨behind, rfl⟩
        exact ⟨behind, rfl⟩
    · have again :=
        persistsAt_identifier richer (persistsAt_inner richer) (.nil table) _ _ read empty
      rwa [Cursor.followedBy_nil, Cursor.followedBy_nil] at again
  · rw [attrName_of_other point] at ran ⊢
    exact ran

/-- The name of the attribute, where it is computed: it is read once there is room for the node. -/
def computedAttr? (table : SymbolTable) (arena : Arena) (text : String) : Option String :=
  match buildPrimary table true none ⟨Cursor.ofText text, arena⟩ with
  | .error _ _ => none
  | .ok _ ⟨place, later⟩ =>
    if ['.', '$', '('] <+: place.rest then
      match attrName table later place with
      | .ok name _ => name
      | .error _ _ => none
    else none

variable (allocates : table.registry.Allocates) {holds : NodeId → Nat}
  (steady : arena.Steady [] holds)
  (issued : ∀ key origin, table.lookup key = some origin → arena.Issued origin)
  {text : String} (direct : beginsIndirection text.toList = false)
  (named : computedAttr? table arena text ≠ some "")

include allocates steady issued direct named

theorem readsAs_of_build {node : NodeId} {attr : Option AttrId} {later : SymbolTable}
    {grown : Arena}
    (built : build table arena text none true = (.ok ⟨some node, attr⟩, later, grown)) :
    ∃ name, ReadsAs later grown (Cursor.ofText text) node name ∧
      destinationAttr grown name true = (attr, grown) := by
  unfold build at built
  rw [if_neg (Bool.eq_false_iff.mp direct)] at built
  cases ran : buildPath table true none ⟨Cursor.ofText text, arena⟩ with
  | error failure progress =>
    rw [ran] at built
    cases built
  | ok result progress =>
    rw [ran] at built
    unfold buildPath at ran
    rcases bind_eq_ok_iff.mp ran with ⟨⟨reached, wanted⟩, ⟨place, primed⟩, addressed, ran⟩
    rcases bind_eq_ok_iff.mp ran with ⟨found, _, ended, ⟨⟩⟩
    rcases buildEnd_eq_ok_iff.mp (onFailure_eq_ok_iff.mp ended) with ⟨attributed, accepted⟩
    rcases buildAttr_eq_ok_iff.mp attributed with ⟨name, finish, read, rfl, rfl⟩
    have sameNode : reached = some node := by
      cases wanted with
      | none | some _ =>
        simp only [Prod.mk.injEq, Except.ok.injEq, Target.mk.injEq] at built
        exact built.1.1
    subst sameNode
    rcases primary_of_buildPrimary allocates steady issued addressed with ⟨-, free, again⟩
    have attributes := enriched_destinationAttr primed name
    -- the name is interned and the node bound only after the path was read
    have settled : attr = (destinationAttr primed name true).1 ∧ Richer table primed later grown ∧
        (∀ binding ∈ wanted, later.lookup binding.key = some binding.node) ∧
          grown.names = (destinationAttr primed name true).2.names := by
      cases wanted with
      | none =>
        cases built
        exact ⟨rfl, ⟨rfl, rfl, id, attributes⟩, nofun, rfl⟩
      | some binding =>
        simp only [Prod.mk.injEq, Except.ok.injEq, Target.mk.injEq] at built
        rcases built with ⟨⟨-, rfl⟩, made⟩
        have bind := @richer_bind table (destinationAttr primed name true).2 binding
          (free binding rfl)
        rw [made] at bind
        rcases bind with ⟨richer, bound, names⟩
        refine ⟨rfl, richer.of_enriched attributes, ?_, names⟩
        rintro _ ⟨⟩
        exact bound
    rcases settled with ⟨rfl, richer, bound, names⟩
    -- an empty name is one that was left out, since no computed one came out empty
    have plain : name = some "" → ¬ ['.', '$', '('] <+: place.rest := by
      rintro rfl computed
      apply named
      rw [computedAttr?, addressed]
      simp only [computed, ↓reduceIte]
      rw [read]
    refine ⟨name, ⟨place, finish, again richer bound, attrName_richer richer read plain, ?_⟩,
      destinationAttr_again names⟩
    rwa [richer.robust]

end Brought

end Path

namespace SymbolTable

open RecordGraph.Path (ReadsAs Cursor)

theorem get_eq_some_iff_readsAs {table : SymbolTable} {arena : Arena} {text : String}
    {node : NodeId} (direct : Path.beginsIndirection text.toList = false) :
    table.get arena text = some node ↔
      ∃ name, ReadsAs table arena (Cursor.ofText text) node name := by
  rw [← Path.resolve_iff_readsAs direct, get, resolve]
  cases Path.resolve table arena text with
  | error failure => simp [Path.Target.nothing]
  | ok target =>
    constructor
    · rintro found
      exact ⟨target.attr, by rw [← found]⟩
    · rintro ⟨attr, ⟨⟩⟩
      rfl

/-- A path that names a node is given that node by creating, which then changes nothing but the
names. What is created is what the path names afterwards, and creating it again changes nothing at
all, unless the name of the attribute is computed and came out empty. -/
theorem replace_agrees_with_get {workspace : Workspace} {holds : NodeId → Nat}
    (balanced : workspace.Balanced holds) {table : SymbolTable} (member : table ∈ workspace.tables)
    (allocates : table.registry.Allocates) {path : String}
    (direct : Path.beginsIndirection path.toList = false) :
    (∀ node, table.get workspace.arena path = some node →
      let outcome := table.replace workspace.arena path none true
      outcome.result = some node ∧ outcome.table = table ∧
        ∃ names, outcome.arena = { workspace.arena with names }) ∧
    (Path.computedAttr? table workspace.arena path ≠ some "" → ∀ node,
      let outcome := table.replace workspace.arena path none true
      outcome.result = some node →
        outcome.table.get outcome.arena path = some node ∧
          outcome.table.replace outcome.arena path none true =
            ⟨some node, outcome.table, outcome.arena, []⟩) := by
  constructor
  · intro node found
    rcases (get_eq_some_iff_readsAs direct).mp found with ⟨name, reads⟩
    have built := Path.build_of_readsAs direct reads
    refine ⟨by rw [replace, built], by rw [replace, built], ?_⟩
    rw [replace, built]
    exact Path.names_destinationAttr workspace.arena name
  · intro named node outcome created
    have accounts := balanced.accounts
    have issued (key : String) (origin : NodeId) (bound : table.lookup key = some origin) :
        workspace.arena.Issued origin :=
      balanced.bound origin (Nat.lt_of_lt_of_le (bindingCount_pos bound)
        (List.le_sum_of_mem (List.mem_map_of_mem member)))
    cases built : Path.build table workspace.arena path none true with
    | mk result state =>
      rcases state with ⟨later, grown⟩
      have same : outcome = table.replace workspace.arena path none true := rfl
      rw [replace, built] at same
      cases result with
      | error failure =>
        rw [same] at created
        cases created
      | ok target =>
        rw [same] at created ⊢
        rcases target with ⟨reached, attr⟩
        cases created
        rcases Path.readsAs_of_build allocates accounts.steady issued direct named built with
          ⟨name, reads, again⟩
        refine ⟨(get_eq_some_iff_readsAs direct).mpr ⟨name, reads⟩, ?_⟩
        rw [replace, Path.build_of_readsAs direct reads, again]

/-- A path that names a node, and one that brings a node into being. -/
theorem replace_agrees_with_get_sample :
    let (table, arena) := (empty "main").define Workspace.sample.arena "a" ⟨0, 0⟩
    Workspace.Balanced ⟨arena, [table]⟩ (fun _ => 0) ∧
      table.get arena "a" = some ⟨0, 0⟩ ∧
      (table.replace arena "a" none true).result = some ⟨0, 0⟩ ∧
      (table.replace arena "a[1].note" none true).result = some ⟨2, 0⟩ ∧
      (table.replace arena "a[1].note" none true).table.get
        (table.replace arena "a[1].note" none true).arena "a[1].note" = some ⟨2, 0⟩ := by
  simp only
  have bound : Workspace.Balanced ⟨((empty "main").define Workspace.sample.arena "a" ⟨0, 0⟩).2,
      [((empty "main").define Workspace.sample.arena "a" ⟨0, 0⟩).1]⟩ (fun _ => 0) := by
    have issued : Workspace.sample.arena.Issued ⟨0, 0⟩ :=
      Arena.issued_of_contains (by decide +kernel)
    have kept : Workspace.Balanced (Workspace.sample.onTable 0 fun table arena =>
        table.define arena "a" ⟨0, 0⟩) (fun _ => 0) :=
      (Workspace.balanced_onTable Workspace.balanced_sample Workspace.allocates_sample
        fun others table sound => sound.define "a" issued).1
    exact kept
  have agrees (path : String) := @replace_agrees_with_get _ _ bound _ (List.mem_singleton_self _)
    Registry.allocates_standard path
  have found : ((empty "main").define Workspace.sample.arena "a" ⟨0, 0⟩).1.get
      ((empty "main").define Workspace.sample.arena "a" ⟨0, 0⟩).2 "a" = some ⟨0, 0⟩ := by
    decide +kernel
  have created : (((empty "main").define Workspace.sample.arena "a" ⟨0, 0⟩).1.replace
      ((empty "main").define Workspace.sample.arena "a" ⟨0, 0⟩).2 "a[1].note" none true).result =
        some ⟨2, 0⟩ := by
    decide +kernel
  exact ⟨bound, found, ((agrees "a" (by decide +kernel)).1 _ found).1, created,
    ((agrees "a[1].note" (by decide +kernel)).2 (by decide +kernel) _ created).1⟩

/-- An unclosed parenthesis passes while nothing stands behind it, and then creating binds a key by
which the path is refused from then on. -/
theorem replace_unclosed_attr :
    Workspace.sample.Balanced (fun _ => 0) ∧ empty "main" ∈ Workspace.sample.tables ∧
      Path.beginsIndirection "x.$(x".toList = false ∧
      let outcome := (empty "main").replace Workspace.sample.arena "x.$(x" none true
      outcome.result = some ⟨1, 0⟩ ∧ outcome.table.get outcome.arena "x.$(x" = none ∧
        (outcome.table.replace outcome.arena "x.$(x" none true).result = none :=
  ⟨Workspace.balanced_sample, List.mem_singleton_self _, by decide +kernel, by decide +kernel,
    by decide +kernel, by decide +kernel⟩

end SymbolTable
end RecordGraph
