import RecordGraph.Proofs.Path.Paving
import RecordGraph.Proofs.SymbolTable.Refusal

/-!
# What is stored at a path is found there

A value that is stored at a plain path is the value of that path from then on, whether the node was
there, or was built and bound to the key, or was built and put at the end of the indices. Nothing
else changes its binding or its attributes.
-/

namespace RecordGraph

namespace Path

open SymbolTable (destinationAttr)

section

variable {table : SymbolTable} (direct : table.registry.Direct) {plain : Plain}
  {holds : NodeId → Nat} {waiting : NodeId} {leaf : Node} {arena : Arena}
  (ready : Ready holds waiting leaf arena)
  (known : ∀ origin, table.lookup plain.key = some origin →
    arena.contains origin = true ∧ origin ≠ waiting ∧
      (plain.Small → arena.descend origin plain.numbers = none))

include direct ready

/-- A leaf for a new key is stored beside the one that waits, and nothing stands below it. -/
theorem ready_freshNode (key : String) :
    ∃ fresh later, freshNode table.registry (some waiting) key arena = (fresh, later) ∧
      fresh ≠ waiting ∧ Ready holds waiting leaf later ∧ later.contains fresh = true ∧
      (∃ node, later.live? fresh = some (node, 0) ∧ node.childArray = #[]) ∧
      arena.KeepsAttrs later ∧ later.names = arena.names ∧ ¬ arena.Issued fresh := by
  rcases freshNode_eq direct (some waiting) key arena with ⟨node, childless, same⟩
  have placed := Arena.placed_alloc ready.steady.wellFormed childless
  have apart : (arena.alloc node).1 ≠ waiting := by
    intro same
    have issued := Arena.issued_of_live ready.free
    rw [← same] at issued
    exact placed.not_issued issued
  refine ⟨(arena.alloc node).1, (arena.alloc node).2, same, apart,
    ⟨ready.steady.alloc node, ?_, ready.childless⟩,
    Arena.contains_iff.mpr ⟨node, 0, placed.live?_same⟩, ⟨node, placed.live?_same, childless⟩,
    .alloc ready.steady.wellFormed childless, placed.names, placed.not_issued⟩
  rw [placed.live?_other (Ne.symm apart), ready.free]

include known

/-- The leaf that waited is reached from the node of the key, or from the node that has to be bound
to it. -/
theorem leads_buildPrimary {node : NodeId} {pending : Option PendingBinding} {finish : Cursor}
    {roomy : Arena}
    (ran : buildPrimary table true (some waiting) ⟨.ofText plain.text, arena⟩ =
      .ok (some node, pending) ⟨finish, roomy⟩) :
    node = waiting ∧ plain.Small ∧ finish = plain.middle ∧
      ∃ origin owners, Leads waiting leaf owners arena origin plain.numbers roomy ∧
        (pending = none ∧ owners = 1 ∧ table.lookup plain.key = some origin ∨
          ∃ fresh, pending = some ⟨plain.key, origin, fresh⟩ ∧ table.lookup plain.key = none ∧
            (owners = 0 → origin = waiting)) := by
  cases bound : table.lookup plain.key with
  | some origin =>
    rcases known origin bound with ⟨live, apart, missing⟩
    rw [buildPrimary_of_bound (plain.read_key table arena _) bound,
      if_neg plain.isIdentifier_key.ne_empty] at ran
    rcases bind_eq_ok_iff.mp ran with ⟨addressed, ⟨place, later⟩, built, ran⟩
    simp only at ran
    cases addressed with
    | none => cases ran
    | some reached =>
      rcases leads_buildIndices direct ready plain.isDigit_indices plain.no_bracket_attrText live
        apart missing built with ⟨rfl, small, rfl, leads⟩
      have other : some reached ≠ some origin := fun same => apart (Option.some.inj same).symm
      rw [if_neg other] at ran
      cases ran
      exact ⟨rfl, small, rfl, origin, 1, leads, .inl ⟨rfl, rfl, rfl⟩⟩
  | none =>
    rcases ready_freshNode direct ready plain.key with
      ⟨fresh, later, same, apart, readyLater, live, ⟨node, found, childless⟩, keeps, names, new⟩
    rw [buildPrimary_of_unbound (plain.read_key table arena _) bound
      plain.isIdentifier_key.ne_empty same] at ran
    rcases bind_eq_ok_iff.mp ran with ⟨addressed, ⟨place, roomier⟩, built, ran⟩
    have built := onFailure_eq_ok_iff.mp built
    cases indices : plain.indices with
    | nil =>
      cases (plain.buildIndices_of_nil indices).symm.trans built
      rw [if_pos rfl] at ran
      rcases bind_eq_ok_iff.mp ran with ⟨_, _, freed, ⟨⟩⟩
      rcases change_eq_ok_iff.mp freed with ⟨-, ⟨⟩⟩
      refine ⟨rfl, plain.small_of_nil indices, (plain.middle_of_nil indices).symm, waiting, 0,
        ⟨by rw [plain.numbers_of_nil indices]; rfl, ?_, ?_, ?_⟩,
        .inr ⟨false, rfl, rfl, fun _ => rfl⟩⟩
      · rw [Arena.live?_releaseIfUnowned_leaf found childless (Ne.symm apart), readyLater.free]
      · refine keeps.andSame fun id earlier =>
          Arena.live?_releaseIfUnowned_leaf found childless ?_
        rintro rfl
        exact new (Arena.issued_of_contains earlier)
      · rw [Arena.names_releaseIfUnowned_leaf found childless, names]
    | cons digits others =>
      have missing : later.descend fresh plain.numbers = none := by
        rw [Plain.numbers, indices, List.map_cons, Arena.descend, Arena.child?,
          Arena.children_of_live found, childless, Array.getElem?_empty, Option.bind_none]
      cases addressed with
      | none =>
        rw [if_neg (Option.some_ne_none fresh).symm] at ran
        cases ran
      | some reached =>
        rcases leads_buildIndices direct readyLater plain.isDigit_indices plain.no_bracket_attrText
          live apart (fun _ => missing) built with ⟨rfl, small, rfl, leads⟩
        have other : some reached ≠ some fresh := fun same => apart (Option.some.inj same).symm
        rw [if_neg other] at ran
        cases ran
        exact ⟨rfl, small, rfl, fresh, 1,
          ⟨leads.way, leads.owned, keeps.trans leads.keeps, leads.names.trans names⟩,
          .inr ⟨true, rfl, rfl, fun zero => absurd zero Nat.one_ne_zero⟩⟩

omit direct ready known in
theorem bind_of_free {table : SymbolTable} {arena : Arena} {wanted : PendingBinding}
    (free : table.lookup wanted.key = none) :
    ∃ named, (named = arena ∨
        named = arena.modifyNode wanted.node fun node => { node with name := wanted.key }) ∧
      bind table arena wanted =
        ({ table with bindings := table.bindings.insert wanted.key wanted.node },
          named.retain wanted.node) := by
  rcases bind_eq_define table arena wanted with ⟨named, naming, defines⟩
  refine ⟨named, naming, ?_⟩
  rw [defines, SymbolTable.define]
  simp only [free]
  rfl

omit direct ready known in
theorem leads_bind {owners : Nat} {wanted : PendingBinding} {numbers : List Nat} {roomy : Arena}
    (free : table.lookup wanted.key = none) (owned : owners = 0 → wanted.node = waiting)
    (leads : Leads waiting leaf owners arena wanted.node numbers roomy) :
    let bound := bind table roomy wanted
    bound.1.lookup wanted.key = some wanted.node ∧
      (∀ other, other ≠ wanted.key → bound.1.lookup other = table.lookup other) ∧
      bound.2.descend wanted.node numbers = some waiting ∧
      (∃ content count, bound.2.live? waiting = some (content, count + 1) ∧
        content.attrs = leaf.attrs) ∧
      arena.KeepsAttrs bound.2 ∧ bound.2.names = arena.names := by
  rcases @bind_of_free table roomy wanted free with ⟨named, naming, made⟩
  have settled : named.KeepsAttrs (named.retain wanted.node) := .retain named wanted.node
  have renamed : roomy.KeepsAttrs named ∧ named.names = roomy.names ∧
      ∃ content, named.live? waiting = some (content, owners) ∧ content.attrs = leaf.attrs := by
    rcases naming with rfl | rfl
    · exact ⟨.refl named, rfl, leaf, leads.owned, rfl⟩
    · refine ⟨.modifyNode roomy wanted.node fun _ => rfl, rfl, ?_⟩
      rw [Arena.live?_modifyNode]
      split
      · rename_i same
        rw [← same, leads.owned]
        exact ⟨_, rfl, rfl⟩
      · exact ⟨leaf, leads.owned, rfl⟩
  rcases renamed with ⟨keeps, names, content, found, attrs⟩
  have richer := (@richer_bind table roomy wanted free).1
  rw [made] at richer ⊢
  refine ⟨by simp [SymbolTable.lookup], fun other different => ?_, ?_, ?_, ?_, ?_⟩
  · simp [SymbolTable.lookup, Std.ExtTreeMap.getElem?_insert, Ne.symm different]
  · exact Arena.descend_of_child richer.arena.child leads.way
  · rw [Arena.live?_retain]
    split
    · rename_i same
      rw [← same, found]
      exact ⟨content, owners, rfl, attrs⟩
    · rename_i different
      have positive : owners ≠ 0 := fun zero => different (owned zero).symm
      obtain ⟨count, rfl⟩ := Nat.exists_eq_succ_of_ne_zero positive
      exact ⟨content, count, found, attrs⟩
  · exact leads.keeps.trans (keeps.trans settled)
  · exact names.trans leads.names

end

end Path

namespace SymbolTable

open RecordGraph.Path (Plain Ready)

structure Puts (table : SymbolTable) (arena : Arena) (plain : Plain) (waiting : NodeId)
    (leaf : Node) (later : SymbolTable) (grown : Arena) : Prop where
  reached : ∃ origin, later.lookup plain.key = some origin ∧
    grown.descend origin plain.numbers = some waiting
  others : ∀ key, key ≠ plain.key → later.lookup key = table.lookup key
  owned : ∃ content count, grown.live? waiting = some (content, count + 1) ∧
    content.attrs = leaf.attrs
  keeps : arena.KeepsAttrs grown
  names : grown.names = arena.names

section

variable {table : SymbolTable} (direct : table.registry.Direct) {plain : Plain}
  {holds : NodeId → Nat} {waiting : NodeId} {leaf : Node} {arena : Arena}
  (ready : Ready holds waiting leaf arena)
  (known : ∀ origin, table.lookup plain.key = some origin →
    arena.contains origin = true ∧ origin ≠ waiting ∧
      (plain.Small → arena.descend origin plain.numbers = none))
  {attr : AttrId} (named : destinationAttr arena plain.attr true = (some attr, arena))

include direct ready known named

theorem puts_add {id : NodeId} (added : (table.add arena plain.text waiting).result = some id) :
    id = waiting ∧ plain.Small ∧
      Puts table arena plain waiting leaf (table.add arena plain.text waiting).table
        (table.add arena plain.text waiting).arena := by
  unfold add replace Path.build at added ⊢
  rw [if_neg (Bool.eq_false_iff.mp plain.direct)] at added ⊢
  cases ran : Path.buildPath table true (some waiting) ⟨.ofText plain.text, arena⟩ with
  | error failure progress =>
    rw [ran] at added
    cases added
  | ok result progress =>
    rw [ran] at added
    unfold Path.buildPath at ran
    rcases bind_eq_ok_iff.mp ran with ⟨⟨node, pending⟩, ⟨place, roomy⟩, primed, ran⟩
    rcases bind_eq_ok_iff.mp ran with ⟨found, _, ended, ⟨⟩⟩
    rcases Path.buildEnd_eq_ok_iff.mp (Path.onFailure_eq_ok_iff.mp ended) with ⟨attributed, -⟩
    rcases Path.buildAttr_eq_ok_iff.mp attributed with ⟨name, finish, read, rfl, rfl⟩
    have same : node = some id := by
      cases pending with
      | none => exact added
      | some wanted => exact added
    subst same
    rcases Path.leads_buildPrimary direct ready known primed with
      ⟨rfl, small, rfl, origin, owners, leads, led⟩
    rcases plain.read_attr table roomy plain.middle.position with ⟨finishThere, readThere, -⟩
    cases readThere.symm.trans read
    have again : destinationAttr roomy plain.attr true = (some attr, roomy) := by
      have kept := @Path.destinationAttr_again arena plain.attr roomy (by rw [named, leads.names])
      rw [kept, named]
    refine ⟨rfl, small, ?_⟩
    rcases led with ⟨rfl, rfl, bound⟩ | ⟨fresh, rfl, free, owned⟩
    · simp only [again]
      exact ⟨⟨origin, bound, leads.way⟩, fun _ _ => rfl, ⟨leaf, 0, leads.owned, rfl⟩, leads.keeps,
        leads.names⟩
    · rcases @Path.leads_bind table _ leaf arena owners ⟨plain.key, origin, fresh⟩ _ _ free owned
        leads with ⟨bound, others, way, stands, keeps, names⟩
      simp only [again]
      exact ⟨⟨origin, bound, way⟩, others, stands, keeps, names⟩

end

/-! ## Storing a value -/

section

variable {arena grown : Arena} {name : Option String} {node : NodeId} {attr : AttrId}

/-- The name that was interned to store a value is the one that is looked up afterwards. -/
theorem destinationAttr_of_interned (named : (destinationAttr arena name true).1 = some attr)
    (names : grown.names = (destinationAttr arena name true).2.names) :
    (destinationAttr grown name false).1 = some attr := by
  cases name with
  | none => exact named
  | some name =>
    by_cases unnamed : name = ""
    · subst unnamed
      cases named
    · rw [Path.destinationAttr_some unnamed] at named names ⊢
      simp only [↓reduceIte, Path.internAttr] at named names ⊢
      cases given : arena.names.intern name with
      | error failure =>
        rw [given] at named
        cases named
      | ok interned =>
        simp only [given, Option.some.injEq] at named names
        rw [← named, names]
        exact NameTable.query_of_interned given

theorem attrById?_store (value : Value) (live : arena.contains node = true) :
    (store arena node attr value true).attrById? node attr = some value := by
  rcases Arena.contains_iff.mp live with ⟨content, owners, found⟩
  simp [store, Arena.attrById?, Arena.node?, Arena.live?_modifyNode, found]

theorem attrById?_store_other (value : Value) {asked : NodeId} {other : AttrId}
    (different : ¬ (asked = node ∧ attr = other)) :
    (store arena node attr value true).attrById? asked other = arena.attrById? asked other := by
  simp only [store, Arena.attrById?, Arena.node?, Arena.live?_modifyNode, Bool.true_or, ↓reduceIte]
  split
  · rename_i same
    cases found : arena.live? node with
    | none => simp [same, found]
    | some pair =>
      have apart : other ≠ attr := fun equal => different ⟨same, equal.symm⟩
      simp [same, found, Node.attr?_setAttr_other pair.1 apart]
  · rfl

theorem child?_store (value : Value) {parent : NodeId} {index : Nat} :
    (store arena node attr value true).child? parent index = arena.child? parent index := by
  simp only [store, Arena.child?, Arena.children, Arena.node?, Arena.live?_modifyNode, Bool.true_or,
    ↓reduceIte]
  split
  · rename_i same
    cases found : arena.live? node with
    | none => simp [same, found]
    | some pair => simp [same, found, Node.childArray, Node.setAttr]
  · rfl

end

/-- What is promised of a path once a value is stored at it: it leads to the node of the value, no
other key is bound anew, and of what was there only this attribute of this node has changed. -/
structure Stores (table : SymbolTable) (arena : Arena) (plain : Plain) (value : Value) (id : NodeId)
    (later : SymbolTable) (grown : Arena) : Prop where
  find : later.find grown plain.text = some id
  query : later.query grown plain.text = value
  others : ∀ key, key ≠ plain.key → later.lookup key = table.lookup key
  attrs : ∀ node attr, arena.contains node = true →
    ¬ (node = id ∧ (destinationAttr grown plain.attr false).1 = some attr) →
      grown.attrById? node attr = arena.attrById? node attr

/-- The path leads to the node, and the attribute that it names has the value there. -/
structure Answers (table : SymbolTable) (arena : Arena) (plain : Plain) (node : NodeId)
    (attr : AttrId) (value : Value) : Prop where
  small : plain.Small
  reached : ∃ origin, table.lookup plain.key = some origin ∧
    arena.descend origin plain.numbers = some node
  named : (destinationAttr arena plain.attr false).1 = some attr
  value : arena.attrById? node attr = some value

section

variable {table later : SymbolTable} {arena grown : Arena} {plain : Plain} {value : Value}
  {id : NodeId} {attr : AttrId}

theorem Answers.query (answers : Answers table arena plain id attr value) :
    table.query arena plain.text = value := by
  rcases answers.reached with ⟨origin, bound, way⟩
  rw [(reads_plain bound answers.small way).2, answers.named]
  simp only [Path.Target.value, Path.Target.value?, answers.value, Option.getD_some]

/-- The name of an attribute stands for the same one where names keep their numbers. -/
theorem destinationAttr_of_query {name : Option String}
    (kept : ∀ {text attr}, arena.names.query text = some attr → grown.names.query text = some attr)
    (named : (destinationAttr arena name false).1 = some attr) :
    (destinationAttr grown name false).1 = some attr := by
  cases name with
  | none => exact named
  | some name =>
    by_cases unnamed : name = ""
    · subst unnamed
      cases named
    · rw [Path.destinationAttr_some unnamed] at named ⊢
      exact kept named

theorem Answers.enriched (answers : Answers table arena plain id attr value)
    (enriched : arena.Enriched grown) : Answers table grown plain id attr value where
  small := answers.small
  reached := by
    rcases answers.reached with ⟨origin, bound, way⟩
    exact ⟨origin, bound, Arena.descend_of_child enriched.child way⟩
  named := destinationAttr_of_query enriched.name answers.named
  value := enriched.attr answers.value

/-- It is enough that the path leads to the node and that the attribute has the value there. -/
theorem Stores.of_answers (answers : Answers later grown plain id attr value)
    (others : ∀ key, key ≠ plain.key → later.lookup key = table.lookup key)
    (attrs : ∀ node other, arena.contains node = true → ¬ (node = id ∧ attr = other) →
      grown.attrById? node other = arena.attrById? node other) :
    Stores table arena plain value id later grown where
  find := by
    rcases answers.reached with ⟨origin, bound, way⟩
    exact (reads_plain bound answers.small way).1
  query := answers.query
  others := others
  attrs node other live different := by
    rw [answers.named, Option.some.injEq] at different
    exact attrs node other live different

end

section

variable {workspace : Workspace} {holds : NodeId → Nat} (balanced : workspace.Balanced holds)
  {table : SymbolTable} (direct : table.registry.Direct)
  (live : ∀ key origin, table.lookup key = some origin → workspace.arena.contains origin = true)
  {plain : Plain} {value : Value} {id : NodeId} {attr : AttrId}
  (named : (destinationAttr workspace.arena plain.attr true).1 = some attr)

include balanced live named

theorem answers_of_present {finish : Path.Cursor}
    (primed : Path.primary table workspace.arena (Path.inner table workspace.arena)
      (.ofText plain.text) = .ok (some id) finish) :
    Answers table (store (destinationAttr workspace.arena plain.attr true).2 id attr value true)
      plain id attr value := by
  rcases (plain.primary_eq_ok_iff table workspace.arena).mp primed with
    ⟨origin, bound, small, reached, -⟩
  rcases @Path.names_destinationAttr workspace.arena plain.attr true with ⟨names, interned⟩
  have present := Arena.contains_of_descend balanced.children (live _ _ bound) reached
  have presentNamed : (destinationAttr workspace.arena plain.attr true).2.contains id = true := by
    rw [interned]
    exact present
  refine ⟨small, ⟨origin, bound, ?_⟩, destinationAttr_of_interned named rfl,
    attrById?_store value presentNamed⟩
  refine Arena.descend_of_child (fun {parent child index} stands => ?_) reached
  rw [child?_store, interned]
  exact stands

theorem stores_of_present {finish : Path.Cursor}
    (primed : Path.primary table workspace.arena (Path.inner table workspace.arena)
      (.ofText plain.text) = .ok (some id) finish) :
    Stores table workspace.arena plain value id table
      (store (destinationAttr workspace.arena plain.attr true).2 id attr value true) := by
  rcases @Path.names_destinationAttr workspace.arena plain.attr true with ⟨names, interned⟩
  refine .of_answers (answers_of_present balanced live named primed) (fun _ _ => rfl)
    fun node other _ different => ?_
  rw [attrById?_store_other value (by rintro ⟨rfl, rfl⟩; exact different ⟨rfl, rfl⟩), interned]
  rfl

include direct

theorem stores_of_missing {finish : Path.Cursor}
    (read : table.destination workspace.arena (.ofText plain.text) = .ok (none, plain.attr) finish)
    (stored : (table.set workspace.arena plain.text value true).result = some id) :
    Stores table workspace.arena plain value id
      (table.set workspace.arena plain.text value true).table
      (table.set workspace.arena plain.text value true).arena := by
  rcases set_of_missing direct value read named with ⟨leaf, childless, attrs, same⟩
  rcases @Path.names_destinationAttr workspace.arena plain.attr true with ⟨names, interned⟩
  have accounts := balanced.accounts
  rcases Path.destination_eq_ok_iff.mp read with ⟨place, primed, -, -⟩
  have steady := (settles_destinationAttr workspace.arena plain.attr true _ accounts.steady).1
  have sameNames : names = (destinationAttr workspace.arena plain.attr true).2.names := by
    rw [interned]
  rw [interned] at same steady
  have placed := Arena.placed_alloc steady.wellFormed childless
  have keeps := Arena.KeepsAttrs.alloc steady.wellFormed childless
  have steadyStored := steady.alloc leaf
  generalize ({ workspace.arena with names } : Arena).alloc leaf = leafed
    at same placed keeps steadyStored
  have again := @Path.destinationAttr_again workspace.arena plain.attr leafed.2
    (by rw [placed.names, sameNames])
  rw [named] at again
  have ready : Ready _ leafed.1 leaf leafed.2 :=
    ⟨steadyStored, placed.live?_same, childless⟩
  have known (origin : NodeId) (bound : table.lookup plain.key = some origin) :
      leafed.2.contains origin = true ∧ origin ≠ leafed.1 ∧
        (plain.Small → leafed.2.descend origin plain.numbers = none) := by
    have issued := Arena.issued_of_contains (live _ _ bound)
    refine ⟨placed.contains (live _ _ bound), ?_,
      fun small => Option.eq_none_iff_forall_ne_some.mpr ?_⟩
    · rintro rfl
      exact placed.not_issued issued
    · intro node reached
      have reachedBefore : workspace.arena.descend origin plain.numbers = some node :=
        @Arena.descend_of_child leafed.2 workspace.arena (fun stands =>
          (placed.child?_eq childless _ _).symm.trans stands) _ _ _ reached
      cases ((plain.primary_eq_ok_iff table workspace.arena).mpr
        ⟨origin, bound, small, reachedBefore, rfl⟩).symm.trans primed
  rw [same] at stored ⊢
  rcases puts_add direct ready known again stored with ⟨rfl, small, puts⟩
  rcases puts.reached with ⟨origin, bound, reached⟩
  rcases puts.owned with ⟨content, count, found, sameAttrs⟩
  have owned : (table.add leafed.2 plain.text leafed.1).arena.isUnowned
      leafed.1 = false := by
    simp [Arena.isUnowned, Arena.owners?, found]
  simp only [Arena.releaseIfUnowned, owned, Bool.false_eq_true, ↓reduceIte]
  refine .of_answers ⟨small, ⟨origin, bound, reached⟩, destinationAttr_of_interned named ?_, ?_⟩
    puts.others fun node other present _ => ?_
  · rw [puts.names, placed.names, sameNames]
  · simp [Arena.attrById?, Arena.node?, found, Node.attr?, sameAttrs, attrs, AttrList.single]
  · rw [puts.keeps.attrById? (placed.contains present),
      keeps.attrById? present]
    rfl

end

/-- A value that is stored at a plain path is what the path names from then on, and nothing else
that was there has changed. The name of the attribute has to be there or to find a number: without
one the call has no result. -/
theorem set_stores {workspace : Workspace} {holds : NodeId → Nat}
    (balanced : workspace.Balanced holds) {table : SymbolTable} (direct : table.registry.Direct)
    (live : ∀ key origin, table.lookup key = some origin → workspace.arena.contains origin = true)
    {plain : Plain} (internable : ∀ name ∈ plain.attr, ∃ attr names,
      workspace.arena.names.intern name = .ok (attr, names))
    {value : Value} {id : NodeId}
    (stored : (table.set workspace.arena plain.text value true).result = some id) :
    Stores table workspace.arena plain value id
      (table.set workspace.arena plain.text value true).table
      (table.set workspace.arena plain.text value true).arena := by
  have named : ∃ attr, (destinationAttr workspace.arena plain.attr true).1 = some attr := by
    rcases plain.attrText_cases with ⟨none, -⟩ | ⟨name, given, isIdentifier, -⟩
    · exact ⟨.value, by rw [none]; rfl⟩
    · rcases internable name given with ⟨attr, names, interned⟩
      refine ⟨attr, ?_⟩
      rw [given, Path.destinationAttr_some isIdentifier.ne_empty]
      simp only [↓reduceIte, Path.internAttr, interned]
  rcases named with ⟨attr, named⟩
  cases ran : table.destination workspace.arena (.ofText plain.text) with
  | error failure finish =>
    have ran : (table.destination workspace.arena).run (.ofText plain.text) =
      .error failure finish := ran
    rw [set, ran] at stored
    cases stored
  | ok target finish =>
    rcases target with ⟨node, name⟩
    rcases Path.destination_eq_ok_iff.mp ran with ⟨place, primed, read, -⟩
    cases plain.middle_of_primary _ _ primed
    rcases plain.read_attr table workspace.arena plain.middle.position with ⟨_, readThere, -⟩
    cases readThere.symm.trans read
    cases node with
    | none => exact stores_of_missing balanced direct live named ran stored
    | some node =>
      have made := set_of_present value ran named
      rw [made] at stored ⊢
      cases stored
      exact stores_of_present balanced live named primed

def noted : Plain where
  key := "a"
  indices := [['1']]
  attr := some "note"
  isIdentifier_key := ⟨rfl, List.all_eq_true.mp rfl⟩
  isDigit_indices digits member := by
    rw [List.mem_singleton.mp member]
    exact ⟨nofun, List.all_eq_true.mp rfl⟩
  isIdentifier_attr := by
    rintro name ⟨⟩
    exact ⟨rfl, List.all_eq_true.mp rfl⟩

/-- Two leaves are made below the node of the key, and the node of the value takes the place of the
last one. -/
theorem set_stores_noted :
    Workspace.Balanced ⟨keyed.2, [keyed.1]⟩ (fun _ => 0) ∧ keyed.1.registry.Direct ∧
      noted.text = "a[1].note" ∧
      (keyed.1.set keyed.2 noted.text (.text "x") true).result = some ⟨1, 0⟩ ∧
      (keyed.1.set keyed.2 noted.text (.text "x") true).table.query
        (keyed.1.set keyed.2 noted.text (.text "x") true).arena noted.text = .text "x" := by
  have live (key : String) (origin : NodeId) (bound : keyed.1.lookup key = some origin) :
      keyed.2.contains origin = true := by
    have lone : keyed.1.lookup key = if "a" = key then some ⟨0, 0⟩ else none := by
      simp [keyed, define, lookup, empty, Std.ExtTreeMap.getElem?_insert]
    split at lone
    · cases lone.symm.trans bound
      decide +kernel
    · cases lone.symm.trans bound
  have internable : ∀ name ∈ noted.attr, ∃ attr names,
      keyed.2.names.intern name = .ok (attr, names) := by
    rintro name ⟨⟩
    cases given : keyed.2.names.intern "note" with
    | ok pair => exact ⟨pair.1, pair.2, rfl⟩
    | error failure =>
      have room : (keyed.2.names.intern "note").toOption.isSome = true := by decide +kernel
      rw [given] at room
      cases room
  have stored : (keyed.1.set keyed.2 noted.text (.text "x") true).result = some ⟨1, 0⟩ := by
    decide +kernel
  have direct : keyed.1.registry.Direct := Registry.direct_standard
  have stores := @set_stores ⟨keyed.2, [keyed.1]⟩ (fun _ => 0) balanced_keyed keyed.1 direct live
    noted internable _ _ stored
  exact ⟨balanced_keyed, direct, rfl, stored, stores.query⟩

end SymbolTable
end RecordGraph
