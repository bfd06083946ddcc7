import RecordGraph.Proofs.Arena.Carrying
import RecordGraph.Proofs.SymbolTable.Adding

/-!
# What factories deliver

A value for a path that leads to no node yet is handed to a factory, and the node that the factory
gives is put at the path. If factories give their nodes the attributes that are asked for, and leave
names the numbers that they have, then the value is found at the path afterwards: nothing on the way
there touches the attributes of a node.
-/

namespace RecordGraph

open RecordGraph.Arena (Plants Settles Spares)

/-! ## Factories that deliver -/

/-- A node that the factory gives has the attributes that were asked for, and every name that has a
number keeps it. -/
structure Factory.Delivers (factory : Factory) : Prop where
  attrs : ∀ {arena nodeType name attrs top later attr value}, arena.WellFormed →
    factory.build arena nodeType name (some attrs) = (some top, later) →
      attrs.find? attr = some value → later.attrById? top attr = some value
  names : ∀ {arena nodeType name attrs text attr}, arena.WellFormed →
    arena.names.query text = some attr →
      (factory.build arena nodeType name attrs).2.names.query text = some attr

def Registry.Delivers (registry : Registry) : Prop :=
  registry.Each Factory.Delivers

theorem Arena.attrById?_alloc {arena : Arena} (wellFormed : arena.WellFormed) {node : Node}
    (childless : node.childArray = #[]) (attr : AttrId) :
    (arena.alloc node).2.attrById? (arena.alloc node).1 attr = node.attr? attr := by
  rw [attrById?, node?, (placed_alloc wellFormed childless).live?_same, Option.map_some,
    Option.bind_some]

theorem delivers_direct : Factory.direct.Delivers where
  attrs wellFormed built wanted := by
    cases built
    exact (Arena.attrById?_alloc wellFormed (Node.childArray_ofKind ..) _).trans wanted
  names {arena nodeType name attrs text attr} wellFormed known := by
    have placed := Arena.placed_alloc wellFormed
      (Node.childArray_ofKind name nodeType.kind nodeType attrs)
    have same : (buildLocal arena nodeType name attrs).2.names = arena.names := placed.names
    change (buildLocal arena nodeType name attrs).2.names.query text = some attr
    rw [same, known]

theorem Registry.Direct.delivers {registry : Registry} (direct : registry.Direct) :
    registry.Delivers :=
  direct.each Factory.Delivers

theorem Registry.Each.and {registry : Registry} {good other : Factory → Prop}
    (left : registry.Each good) (right : registry.Each other) :
    registry.Each fun factory => good factory ∧ other factory :=
  fun key entry factory found same =>
    ⟨left key entry factory found same, right key entry factory found same⟩

/-- Where trees of new nodes are stored, nothing happens to the attributes that there were. -/
theorem Arena.Plants.spares {holds : NodeId → Nat} {tops : List NodeId} {before after : Arena}
    (plants : Plants holds [] tops before after)
    (name : ∀ {text attr}, before.names.query text = some attr →
      after.names.query text = some attr) : before.Spares after where
  carries := by
    refine ⟨plants.issued, fun {id node} found => ?_⟩
    by_cases known : before.Issued id
    · rw [node?, plants.kept known List.not_mem_nil] at found
      exact .inl ⟨node, found, rfl⟩
    · exact .inr ⟨known, trivial⟩
  name := name

section

variable {registry : Registry} (sprouts : registry.Sprouts) (delivers : registry.Delivers)
  {holds : NodeId → Nat} {arena : Arena} (steady : arena.Steady [] holds)

include sprouts delivers steady

theorem plants_build_single {attr : AttrId} {value : Value} {top : NodeId} {later : Arena}
    (built : registry.build arena
      { BuildRequest.named "" with attrs := some (.single attr value) } = (some top, later)) :
    Plants holds [] [top] arena later ∧ arena.Spares later ∧
      later.attrById? top attr = some value := by
  have made : registry.buildNode arena
      { BuildRequest.named "" with attrs := some (.single attr value) } = (some top, later) := by
    unfold Registry.build at built
    split at built
    · cases built
    · rename_i same
      cases built
      exact same
  rcases (Registry.Each.and sprouts delivers).buildNode_cases
    ⟨sprouts_direct, delivers_direct⟩ arena
    { BuildRequest.named "" with attrs := some (.single attr value) } with
    nothing | ⟨factory, nodeType, ⟨tree, whole⟩, same⟩
  · rw [nothing] at made
    cases made
  · have made : factory.build arena nodeType "" (some (.single attr value)) = (some top, later) :=
      same.symm.trans made
    have planted : Plants holds [] [top] arena later := by
      rcases tree arena nodeType "" (some (.single attr value)) steady.wellFormed with
        ⟨names, none⟩ | ⟨given, grown, some, sprouted⟩
      · cases none.symm.trans made
      · cases some.symm.trans made
        exact sprouted.plants steady
    refine ⟨planted, planted.spares fun known => ?_, ?_⟩
    · have kept := @Factory.Delivers.names factory whole arena nodeType ""
        (some (.single attr value)) _ _ steady.wellFormed known
      rwa [made] at kept
    · refine whole.attrs steady.wellFormed made ?_
      rw [AttrList.single, AttrList.find?_set_same]

theorem spares_freshNode (template : Option NodeId) (name : String) :
    arena.Spares (Path.freshNode registry template name arena).2 := by
  have planted := (Path.sprouts_freshNode sprouts template name steady.wellFormed).plants steady
  refine planted.spares fun {text attr} known => ?_
  unfold Path.freshNode
  generalize ((template.bind arena.node?).map (·.nodeType)).getD (.ofKind .base) = nodeType
  simp only [Registry.build, Registry.buildNode, BuildRequest.named]
  rcases (Registry.Each.and sprouts delivers).buildTyped_cases ⟨sprouts_direct, delivers_direct⟩
    arena nodeType name none with ⟨factory, ⟨tree, whole⟩, same⟩
  have kept := @Factory.Delivers.names factory whole arena nodeType name none text attr
    steady.wellFormed known
  rw [same]
  rcases tree arena nodeType name none steady.wellFormed with
    ⟨names, built⟩ | ⟨top, later, built, _⟩
  · rw [built] at kept ⊢
    have wellFormed := (Settles.names arena names holds steady).1.wellFormed
    have fallback := @Factory.Delivers.names .direct delivers_direct { arena with names }
      (.ofKind .base) name none text attr wellFormed kept
    exact fallback
  · rw [built] at kept ⊢
    exact kept

end

/-! ## What a path does not touch -/

namespace Path

structure Spared (holds : NodeId → Nat) (origin arena : Arena) : Prop where
  steady : arena.Steady [] holds
  spares : origin.Spares arena

section

variable {holds : NodeId → Nat} {origin arena later : Arena} {fresh : List NodeId}

theorem Spared.andThen (spared : Spared holds origin arena) (settles : Settles fresh arena later)
    (spares : arena.Spares later) : Spared holds origin later :=
  ⟨(settles holds spared.steady).1, spared.spares.trans spares⟩

theorem spares_internAttr (name : String) (arena : Arena) :
    arena.Spares (internAttr name arena).2 := by
  unfold internAttr
  split
  · rename_i given
    exact .names arena (NameTable.query_of_intern given)
  · exact .refl arena

theorem spares_destinationAttr (arena : Arena) (name : Option String) :
    arena.Spares (SymbolTable.destinationAttr arena name true).2 := by
  unfold SymbolTable.destinationAttr
  split
  · exact .refl arena
  · exact .refl arena
  · exact spares_internAttr _ arena

theorem keeping_spared {registry : Registry} (sprouts : registry.Sprouts)
    (delivers : registry.Delivers) (template : Option NodeId) (holds : NodeId → Nat)
    (origin : Arena) : Keeping registry template (Spared holds origin) where
  built name spared :=
    ⟨((sprouts_freshNode sprouts template name spared.steady.wellFormed).plants
        spared.steady).steady,
      spared.spares.trans (spares_freshNode sprouts delivers spared.steady template name)⟩
  roomy {arena} parent spared :=
    spared.andThen (.ensureChildren arena parent) (.ensureChildren arena parent)
  pushed {arena} parent child spared :=
    spared.andThen (.pushChild arena parent child) (.pushChild arena parent child)
  put {arena node} parent index _ spared :=
    spared.andThen (.setChild arena parent index node) (.setChild arena parent index node)
  freed {arena} node spared :=
    spared.andThen (.releaseIfUnowned arena node) (.releaseIfUnowned arena node)
  interned {arena} name spared :=
    spared.andThen (settles_internAttr name arena) (spares_internAttr name arena)

variable {table : SymbolTable} {wanted : PendingBinding}
  (kept : table.lookup wanted.key = none ∨ table.lookup wanted.key = some wanted.node)

include kept

theorem spares_bind : arena.Spares (bind table arena wanted).2 := by
  rcases @bind_cases table arena wanted kept with ⟨named, naming, made⟩
  have spares : arena.Spares named := by
    rcases naming with rfl | rfl
    · exact .refl named
    · exact .modifyNode arena wanted.node fun _ => rfl
  rcases made with same | same
  · rw [same]
    exact spares
  · rw [same]
    exact spares.trans (.retain named wanted.node)

theorem owned_bind {id : NodeId} (owned : arena.isUnowned id = false) :
    (bind table arena wanted).2.isUnowned id = false := by
  rcases @bind_cases table arena wanted kept with ⟨named, naming, made⟩
  have follows : Arena.Follows [] arena (bind table arena wanted).2 := by
    have renamed : Arena.Follows [] arena named := by
      rcases naming with rfl | rfl
      · exact .refl named
      · exact Arena.follows_modifyNode arena wanted.node _
    rcases made with same | same
    · rw [same]
      exact renamed
    · rw [same]
      exact renamed.trans (Arena.follows_retain named wanted.node)
  rw [Bool.eq_false_iff]
  intro unowned
  rcases follows.unowned unowned with earlier | member
  · rw [owned] at earlier
    cases earlier
  · cases member

end

theorem owned_bind_self {table : SymbolTable} {arena : Arena} {wanted : PendingBinding}
    (free : table.lookup wanted.key = none) :
    (bind table arena wanted).2.isUnowned wanted.node = false := by
  rcases @bind_of_free table arena wanted free with ⟨named, -, made⟩
  rw [made, Bool.eq_false_iff]
  intro unowned
  rcases Arena.isUnowned_iff.mp unowned with ⟨node, found⟩
  rw [Arena.live?_retain, if_pos rfl] at found
  rcases Option.map_eq_some_iff.mp found with ⟨content, -, same⟩
  cases same

end Path

theorem Arena.Steady.of_descend {holds : NodeId → Nat} {arena : Arena}
    (steady : arena.Steady [] holds) {origin node : NodeId} {numbers : List Nat}
    (some : numbers ≠ []) (way : arena.descend origin numbers = .some node) :
    arena.contains node = true ∧ arena.isUnowned node = false := by
  rcases List.eq_nil_or_concat numbers with none | ⟨front, index, rfl⟩
  · exact absurd none some
  · rw [List.concat_eq_append, descend_append] at way
    rcases Option.bind_eq_some_iff.mp way with ⟨parent, -, last⟩
    rw [descend_singleton] at last
    have member := Array.mem_of_getElem? last
    have listed := occurrences_pos member
    refine ⟨steady.child_live member, ?_⟩
    rw [Bool.eq_false_iff]
    intro unowned
    rcases isUnowned_iff.mp unowned with ⟨content, found⟩
    have count := steady.ownerCount_eq node
    rw [ownerCount_of_live found] at count
    omega

namespace SymbolTable

open RecordGraph.Path (Plain)

structure Delivered (arena : Arena) (plain : Plain) (node : NodeId) (later : SymbolTable)
    (grown : Arena) : Prop where
  small : plain.Small
  reached : ∃ origin, later.lookup plain.key = some origin ∧
    grown.descend origin plain.numbers = some node
  live : grown.contains node = true
  owned : grown.isUnowned node = false
  spares : arena.Spares grown

section

variable {table : SymbolTable} (sprouts : table.registry.Sprouts)
  (delivers : table.registry.Delivers) {plain : Plain} {holds : NodeId → Nat}
  (free : plain.numbers = [] → table.lookup plain.key = none)

include sprouts delivers free

theorem delivered_add {arena : Arena} (steady : arena.Steady [] holds)
    (held : ∀ origin, table.lookup plain.key = some origin →
      arena.Issued origin ∧ (arena.contains origin = true → 0 < holds origin))
    {template node : NodeId} (live : arena.contains template = true)
    (receives : plain.Small → table.Receives arena plain template)
    (added : (table.add arena plain.text template).result = some node) :
    node = template ∧ Delivered arena plain template
      (table.add arena plain.text template).table (table.add arena plain.text template).arena := by
  rcases buildPrimary_of_add plain.direct added with ⟨pending, finish, roomy, primed⟩
  rcases Path.primes_of_buildPrimary sprouts steady live primed held with
    ⟨rfl, small, rfl, still, origin, primes, descends⟩
  have way := descends (receives small)
  have spared := (Path.keeping_spared sprouts delivers (some node) holds arena).buildPrimary true
    ⟨.ofText plain.text, arena⟩ ⟨steady, .refl arena⟩
  rw [primed] at spared
  rcases @Path.names_destinationAttr roomy plain.attr true with ⟨names, interned⟩
  have named := Path.spares_destinationAttr roomy plain.attr
  refine ⟨rfl, ?_⟩
  rw [add_eq_of_buildPrimary primed]
  rw [interned] at named ⊢
  have onward : ({ roomy with names } : Arena).descend origin plain.numbers = some node :=
    @Arena.descend_of_child roomy { roomy with names } id _ _ _ way
  have ended (some : plain.numbers ≠ []) := spared.steady.of_descend some way
  have standing : ({ roomy with names } : Arena).contains node = true := by
    by_cases none : plain.numbers = []
    · exact still none
    · exact (ended none).1
  rcases primes with ⟨rfl, bound⟩ | ⟨fresh, rfl, kept⟩
  · refine ⟨small, ⟨origin, bound, onward⟩, standing, (ended fun none => ?_).2,
      spared.spares.trans named⟩
    cases bound.symm.trans (free none)
  · have primes : Path.Primes table plain origin (some ⟨plain.key, origin, fresh⟩) :=
      .inr ⟨fresh, rfl, kept⟩
    have kept : table.lookup plain.key = none ∨ table.lookup plain.key = some origin :=
      kept.elim (fun none => .inl (free none)) id
    rcases primes.descend onward with ⟨bound, reached⟩
    refine ⟨small, ⟨origin, bound, reached⟩, (Path.enriched_bind kept).contains standing, ?_,
      spared.spares.trans (named.trans (Path.spares_bind kept))⟩
    by_cases none : plain.numbers = []
    · rw [none] at onward
      cases onward
      exact Path.owned_bind_self (free none)
    · exact Path.owned_bind kept (ended none).2

end

section

variable {table : SymbolTable} {plain : Plain} {holds : NodeId → Nat} {arena : Arena}
  {place : Path.Cursor} (primed : Path.primary table arena (Path.inner table arena)
    (.ofText plain.text) = .ok none place)

include primed

theorem descend_of_missing {origin : NodeId} (bound : table.lookup plain.key = some origin)
    (small : plain.Small) : arena.descend origin plain.numbers = none := by
  refine Option.eq_none_iff_forall_ne_some.mpr fun node way => ?_
  have present := (plain.primary_eq_ok_iff table arena).mpr ⟨origin, bound, small, way, rfl⟩
  cases present.symm.trans primed

theorem unbound_of_missing (none : plain.numbers = []) : table.lookup plain.key = .none := by
  refine Option.eq_none_iff_forall_ne_some.mpr fun origin bound => ?_
  have lost := descend_of_missing primed bound (plain.small_of_nil (List.map_eq_nil_iff.mp none))
  rw [none] at lost
  cases lost

theorem receives_of_missing {names : NameTable} {top : NodeId} {later : Arena}
    (plants : Plants holds [] [top] { arena with names } later) (small : plain.Small) :
    table.Receives later plain top := by
  refine .inr (.inr ⟨?_, ?_⟩)
  · rcases Arena.isUnowned_iff.mp (plants.isUnowned_top (List.mem_singleton_self top)) with
      ⟨content, found⟩
    simp [Arena.canLink, found]
  · rintro ⟨origin, bound, twice⟩
    rcases ((Arena.Spreads.of_plants plants).revisits twice).leads with ⟨node, way⟩
    have before : arena.descend origin plain.numbers = some node :=
      @Arena.descend_of_child { arena with names } arena (fun stands => stands) _ _ _ way
    cases (descend_of_missing primed bound small).symm.trans before

end

section

variable {table : SymbolTable} (sprouts : table.registry.Sprouts)
  (delivers : table.registry.Delivers) {plain : Plain} {holds : NodeId → Nat} {arena : Arena}
  (steady : arena.Steady [] holds)
  (held : ∀ origin, table.lookup plain.key = some origin →
    arena.Issued origin ∧ (arena.contains origin = true → 0 < holds origin))

include sprouts delivers steady held

/-- A value for a path that leads to no node is what the path answers afterwards, if it is
stored. -/
theorem answers_of_missing {value : Value} {id : NodeId} {attr : AttrId} {finish : Path.Cursor}
    (named : (destinationAttr arena plain.attr true).1 = some attr)
    (read : table.destination arena (.ofText plain.text) = .ok (none, plain.attr) finish)
    (stored : (table.set arena plain.text value true).result = some id) :
    Answers (table.set arena plain.text value true).table
      (table.set arena plain.text value true).arena plain id attr value := by
  rcases Path.destination_eq_ok_iff.mp read with ⟨place, primed, -, -⟩
  rcases @Path.names_destinationAttr arena plain.attr true with ⟨names, interned⟩
  have steadyNamed := (settles_destinationAttr arena plain.attr true holds steady).1
  have answered := destinationAttr_of_interned named rfl
  have read : (table.destination arena).run (.ofText plain.text) = .ok (none, plain.attr) finish :=
    read
  unfold set at stored ⊢
  simp only [read, named, ↓reduceIte] at stored ⊢
  rw [interned] at stored steadyNamed answered ⊢
  rcases made : table.registry.build { arena with names }
    { BuildRequest.named "" with attrs := some (.single attr value) } with ⟨built, later⟩
  rw [made] at stored
  cases built with
  | none => cases stored
  | some built =>
    rcases plants_build_single sprouts delivers steadyNamed made with ⟨plants, spares, given⟩
    have new := plants.top_fresh (List.mem_singleton_self built)
    have heldLater (origin : NodeId) (bound : table.lookup plain.key = some origin) :
        later.Issued origin ∧ (later.contains origin = true → 0 < holds origin) := by
      rcases held origin bound with ⟨known, claimed⟩
      refine ⟨plants.issued known, fun standing => claimed ?_⟩
      rw [Arena.contains, plants.kept known List.not_mem_nil] at standing
      exact standing
    rcases delivered_add sprouts delivers (unbound_of_missing primed) plants.steady heldLater
      (plants.live new) (receives_of_missing primed plants) stored with ⟨rfl, delivered⟩
    have kept : (table.add later plain.text id).arena.releaseIfUnowned id =
        (table.add later plain.text id).arena := by
      rw [Arena.releaseIfUnowned, delivered.owned]
      rfl
    simp only [kept]
    exact ⟨delivered.small, delivered.reached,
      destinationAttr_of_query (delivered.spares.name ∘ spares.name) answered,
      (delivered.spares.attrById? new.1 delivered.live attr).trans given⟩

end

end SymbolTable

end RecordGraph
