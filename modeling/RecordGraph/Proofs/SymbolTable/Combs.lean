import RecordGraph.Proofs.Path.Combs
import RecordGraph.Proofs.SymbolTable.Setting

/-!
# What a path below a new key looks like

A value that is stored at a plain path whose key is free makes a comb of new nodes: one for the key,
and for each index as many as its list then holds. The leaf with the value is the tip of the comb.
Nothing that was there before has a part in it.
-/

namespace RecordGraph

namespace Path

open RecordGraph.Arena (Alike Comb)

structure Tips (arena : Arena) (waiting : NodeId) (leaf : Node) (origin : NodeId)
    (numbers : List Nat) (nodes : List NodeId) (later : Arena) : Prop where
  comb : later.Comb origin numbers waiting nodes
  nodup : (origin :: nodes).Nodup
  new : ∀ id ∈ origin :: nodes, id ≠ waiting → arena.contains id = false
  others : ∀ id, id ∉ origin :: nodes → later.live? id = arena.live? id
  owned : ∃ owners, later.live? waiting = some (leaf, owners) ∧ (owners = 0 → origin = waiting)
  count : later.live = arena.live + nodes.length

section

variable {table : SymbolTable} (direct : table.registry.Direct) {waiting : NodeId} {leaf : Node}
  {arena : Arena} (wellFormed : arena.WellFormed) (free : arena.live? waiting = some (leaf, 0))

include direct wellFormed free

/-- The leaf that waits takes the place of the one that was made at the end of the indices. -/
theorem tips_buildIndices {indices : List (List Char)} {rest : List Char}
    (areDigits : ∀ digits ∈ indices, digits ≠ [] ∧ ∀ digit ∈ digits, Text.isDigit digit = true)
    (ends : rest.head? ≠ some '[') (small : ∀ digits ∈ indices, indexOf digits < 65536)
    (present : indices ≠ []) {origin : NodeId} {owners : Nat} (blank : Blank arena origin owners)
    (apart : origin ≠ waiting) (position : Nat) :
    ∃ kept later, buildIndices table true (some waiting) origin
        ⟨⟨position, bracketed indices ++ rest⟩, arena⟩ =
          .ok (some waiting) ⟨.behind position indices rest, later⟩ ∧
      later.Comb origin (indices.map indexOf) waiting (kept ++ [waiting]) ∧
      (origin :: (kept ++ [waiting])).Nodup ∧ (∀ id ∈ kept, arena.contains id = false) ∧
      (∀ id, id ∉ origin :: (kept ++ [waiting]) → later.live? id = arena.live? id) ∧
      later.live? waiting = some (leaf, 1) ∧ later.live = arena.live + kept.length := by
  rcases combs_followIndices direct (some waiting) (.of_bracketed areDigits rest) ends small wellFormed
    blank none position with
    ⟨tip, last, nodes, roomy, followed, added, comb, none | placed⟩
  · exact absurd none.1 present
  rcases placed with ⟨front, index, parent, numbers, rfl, way, tipBlank⟩
  have waitingLive : arena.contains waiting = true := Arena.contains_iff.mpr ⟨leaf, 0, free⟩
  have stillFree : roomy.live? waiting = some (leaf, 0) := by
    rw [added.others waiting (added.not_mem waitingLive) (Ne.symm apart), free]
  have absent : waiting ∉ origin :: nodes := by
    rintro (_ | ⟨_, member⟩)
    · exact apart rfl
    · exact added.not_mem waitingLive member
  have nodup : (origin :: nodes).Nodup :=
    List.nodup_cons.mpr ⟨added.not_mem blank.contains, added.nodup⟩
  have different : tip ≠ waiting := fun same => absent (same ▸ comb.tip_mem)
  rw [numbers] at comb ⊢
  have stood : roomy.child? parent index = some tip := by
    have reached := comb.descend
    rwa [Arena.descend_append, way, Option.bind_some, Arena.descend_singleton] at reached
  have linkable : roomy.canLink waiting = true := by simp [Arena.canLink, stillFree]
  have tipChildless := tipBlank.bare.children
  rcases tipBlank with ⟨content, foundTip, contentChildless, -⟩
  have yields := Arena.yields_setChild stood foundTip contentChildless linkable different
  have parentMember : parent ∈ origin :: nodes := by
    rcases comb.mem_of_descend tipChildless way with ⟨-, rfl⟩ | member
    · exact List.mem_cons_self
    · exact List.mem_cons_of_mem _ member
  have notParent : waiting ≠ parent := fun same => absent (same ▸ parentMember)
  have tipNotParent : tip ≠ parent := by
    rintro rfl
    rw [Arena.child?, tipChildless] at stood
    cases stood
  rcases comb.put nodup way absent yields with ⟨kept, rfl, put⟩
  rw [← List.cons_append] at nodup absent
  have keptNodup := (List.nodup_append.mp nodup).1
  refine ⟨kept, _, ?_, put, ?_, fun id member => added.new id (List.mem_append_left _ member),
    fun id other => ?_, ?_, ?_⟩
  · unfold buildIndices
    refine bind_eq_ok_iff.mpr ⟨_, _, rfl, bind_eq_ok_iff.mpr ⟨_, _, followed, ?_⟩⟩
    exact bind_eq_ok_iff.mpr ⟨_, _, change_eq_ok_iff.mpr ⟨rfl, rfl⟩, rfl⟩
  · rw [← List.cons_append]
    refine List.nodup_append.mpr ⟨keptNodup, List.nodup_singleton _, ?_⟩
    rintro id member other (_ | ⟨_, ⟨⟩⟩) same
    exact absent (List.mem_append_left _ (same ▸ member))
  · rw [← List.cons_append, List.mem_append, not_or, List.mem_singleton] at other
    by_cases here : id = tip
    · subst here
      have stale := added.new id (List.mem_append_right _ (List.mem_singleton_self id))
      rw [yields.gone, Arena.live?_of_not_contains stale]
    · have apartFrom : id ∉ origin :: kept ++ [tip] := by
        rw [List.mem_append, List.mem_singleton, not_or]
        exact ⟨other.1, here⟩
      have notParentId : id ≠ parent := fun same => apartFrom (same ▸ parentMember)
      rw [yields.others id notParentId here other.2]
      refine added.others id (fun member => apartFrom (List.mem_cons_of_mem _ member)) ?_
      rintro rfl
      exact apartFrom List.mem_cons_self
  · rw [yields.linked notParent, stillFree]
    rfl
  · rw [yields.live, added.count, List.length_append, List.length_singleton]
    omega

/-- A key that is free gets a comb of its own, or the leaf itself where no index follows it. -/
theorem tips_buildPrimary {plain : Plain} (unbound : table.lookup plain.key = none)
    (small : ∀ number ∈ plain.numbers, number < 65536) :
    ∃ origin fresh nodes later, buildPrimary table true (some waiting) ⟨.ofText plain.text, arena⟩ =
        .ok (some waiting, some ⟨plain.key, origin, fresh⟩) ⟨plain.middle, later⟩ ∧
      Tips arena waiting leaf origin plain.numbers nodes later := by
  rcases freshNode_bare direct (some waiting) plain.key arena with
    ⟨node, bareNode, unmarked, same⟩
  have placed := Arena.placed_alloc wellFormed bareNode
  have wellFormedStored := Arena.wellFormed_alloc wellFormed node
  have counted : (arena.alloc node).2.live = arena.live + 1 := Arena.live_alloc_leaf bareNode
  generalize arena.alloc node = stored at same placed wellFormedStored counted
  rcases stored with ⟨key, stored⟩
  have waitingLive : arena.contains waiting = true := Arena.contains_iff.mpr ⟨leaf, 0, free⟩
  have stale : arena.contains key = false := by
    rw [Arena.contains, placed.live?_before]
    rfl
  have apart : key ≠ waiting := by
    rintro rfl
    rw [waitingLive] at stale
    cases stale
  have freeStored : stored.live? waiting = some (leaf, 0) := by
    rw [placed.live?_other (Ne.symm apart), free]
  have blank : Blank stored key 0 := ⟨node, placed.live?_same, bareNode, unmarked⟩
  have built {addressed : Option NodeId} {result : Option NodeId × Option PendingBinding}
      {finish later : Progress}
      (indexed : buildIndices table true (some waiting) key ⟨plain.start, stored⟩ =
        .ok addressed later)
      (ended : (if addressed = some key then do
          Builder.change fun arena => ((), arena.releaseIfUnowned key)
          return (some waiting, some ⟨plain.key, waiting, false⟩)
        else return (addressed, some ⟨plain.key, key, true⟩) : Builder _) later =
          .ok result finish) :
      buildPrimary table true (some waiting) ⟨.ofText plain.text, arena⟩ = .ok result finish := by
    rw [buildPrimary_of_unbound (plain.read_key table arena _) unbound
      plain.isIdentifier_key.ne_empty same]
    exact bind_eq_ok_iff.mpr ⟨_, _, onFailure_eq_ok_iff.mpr indexed, ended⟩
  by_cases present : plain.indices = []
  · refine ⟨waiting, false, [], stored.releaseIfUnowned key,
      built (plain.buildIndices_of_nil present) ?_, ?_⟩
    · rw [if_pos rfl, plain.middle_of_nil present]
      exact bind_eq_ok_iff.mpr ⟨_, _, change_eq_ok_iff.mpr ⟨rfl, rfl⟩, rfl⟩
    · have released (id : NodeId) (other : id ≠ key) :
          (stored.releaseIfUnowned key).live? id = arena.live? id := by
        rw [Arena.live?_releaseIfUnowned_leaf placed.live?_same bareNode other,
          placed.live?_other other]
      have gone : stored.releaseIfUnowned key = stored.destroy key := by
        simp [Arena.releaseIfUnowned, Arena.isUnowned, Arena.owners?, placed.live?_same]
      refine ⟨?_, List.nodup_singleton _, fun id member other => ?_, fun id other => ?_,
        ⟨0, ?_, fun _ => rfl⟩, ?_⟩
      · rw [plain.numbers_of_nil present]
        exact .tip waiting
      · exact absurd (List.mem_singleton.mp member) other
      · by_cases same : id = key
        · rw [same, gone, Arena.live?_destroy, placed.live?_before]
        · exact released id same
      · rw [released waiting (Ne.symm apart), free]
      · rw [gone, Arena.live_destroy_leaf placed.live?_same bareNode, counted]
        rfl
  · have smallDigits (digits : List Char) (member : digits ∈ plain.indices) :
        indexOf digits < 65536 := small _ (List.mem_map_of_mem member)
    rcases tips_buildIndices direct wellFormedStored freeStored plain.isDigit_indices
      plain.no_bracket_attrText smallDigits present blank apart (0 + byteSize plain.key.toList) with
      ⟨kept, later, indexed, comb, nodup, new, others, owned, count⟩
    have old (id : NodeId) (other : id ≠ key) : stored.live? id = arena.live? id :=
      placed.live?_other other
    refine ⟨key, true, kept ++ [waiting], later, built indexed ?_, comb, nodup,
      fun id member other => ?_, fun id absent => ?_,
      ⟨1, owned, fun none => absurd none Nat.one_ne_zero⟩, ?_⟩
    · rw [if_neg fun same => apart (Option.some.inj same).symm]
      rfl
    · rcases List.mem_cons.mp member with rfl | inside
      · exact stale
      · rcases List.mem_append.mp inside with among | last
        · have notKey : id ≠ key := fun same =>
            (List.nodup_cons.mp nodup).1 (same ▸ inside)
          rw [Arena.contains, ← old id notKey]
          exact new id among
        · exact absurd (List.mem_singleton.mp last) other
    · have notKey : id ≠ key := fun same => absent (same ▸ List.mem_cons_self)
      rw [others id absent, old id notKey]
    · rw [count, counted, List.length_append, List.length_singleton]
      omega

end

/-! ## Binding the key -/

/-- A binding for a key that was free leaves all lists and attributes, and nothing but the bound
node changes. -/
theorem alike_bind {table : SymbolTable} {wanted : PendingBinding} {arena : Arena}
    (free : table.lookup wanted.key = none) :
    (∀ id, Alike arena (bind table arena wanted).2 id) ∧
      (∀ id, id ≠ wanted.node → (bind table arena wanted).2.live? id = arena.live? id) ∧
      (bind table arena wanted).2.owners? wanted.node =
        (arena.owners? wanted.node).map (· + 1) ∧
      (bind table arena wanted).2.live = arena.live := by
  rcases @bind_of_free table arena wanted free with ⟨named, naming, made⟩
  have renamed : (∀ id, Alike arena named id) ∧
      (∀ id, id ≠ wanted.node → named.live? id = arena.live? id) ∧
      named.owners? wanted.node = arena.owners? wanted.node ∧ named.live = arena.live := by
    rcases naming with rfl | rfl
    · exact ⟨fun _ => ⟨rfl, rfl⟩, fun _ _ => rfl, rfl, rfl⟩
    · refine ⟨fun id => .modifyNode arena wanted.node id (fun _ => rfl) fun _ => rfl,
        fun id other => ?_, ?_, rfl⟩
      · rw [Arena.live?_modifyNode, if_neg other]
      · rw [Arena.owners?, Arena.owners?, Arena.live?_modifyNode, if_pos rfl, Option.map_map]
        rfl
  rcases renamed with ⟨alike, others, owners, live⟩
  rw [made]
  refine ⟨fun id => (alike id).trans (.retain named wanted.node id), fun id other => ?_, ?_, ?_⟩
  · rw [Arena.live?_retain, if_neg other, others id other]
  · rw [← owners, Arena.owners?, Arena.owners?, Arena.live?_retain, if_pos rfl, Option.map_map,
      Option.map_map]
    rfl
  · exact live

end Path

namespace SymbolTable

open RecordGraph.Path (Plain Tips)

section

variable {table : SymbolTable} {arena : Arena} {plain : Plain}
  (unbound : table.lookup plain.key = none) (small : ∀ number ∈ plain.numbers, number < 65536)

include small

theorem small_of_numbers : plain.Small := fun digits member =>
  Nat.lt_trans (small _ (List.mem_map_of_mem member)) (by decide +kernel)

include unbound

theorem primary_of_unbound :
    Path.primary table arena (Path.inner table arena) (.ofText plain.text) =
      .ok none plain.middle := by
  rw [plain.primary_text, unbound]
  exact Path.indices_of_none plain.indexed plain.no_bracket_attrText (small_of_numbers small)

end

/-- Where the primary of a path is given a node, adding a node gives it too, once the name of the
attribute is interned and the binding is made that the primary asks for. -/
theorem add_eq_of_buildPrimary {table : SymbolTable} {arena roomy : Arena} {plain : Plain}
    {waiting : NodeId} {node : Option NodeId} {pending : Option Path.PendingBinding}
    (primed : Path.buildPrimary table true (some waiting) ⟨.ofText plain.text, arena⟩ =
      .ok (node, pending) ⟨plain.middle, roomy⟩) :
    let named := (destinationAttr roomy plain.attr true).2
    table.add arena plain.text waiting =
      match pending with
      | none => ⟨node, table, named, []⟩
      | some wanted =>
        ⟨node, (Path.bind table named wanted).1, (Path.bind table named wanted).2, []⟩ := by
  intro named
  rcases plain.read_attr table roomy plain.middle.position with ⟨finish, read, ends⟩
  have ended : Path.buildEnd table true ⟨plain.middle, roomy⟩ =
      .ok (destinationAttr roomy plain.attr true).1 ⟨finish, named⟩ :=
    Path.buildEnd_eq_ok_iff.mpr
      ⟨Path.buildAttr_eq_ok_iff.mpr ⟨plain.attr, finish, read, rfl, rfl⟩, .inr ends⟩
  have ran : Path.buildPath table true (some waiting) ⟨.ofText plain.text, arena⟩ =
      .ok (⟨node, (destinationAttr roomy plain.attr true).1⟩, pending) ⟨finish, named⟩ := by
    unfold Path.buildPath
    exact bind_eq_ok_iff.mpr
      ⟨_, _, primed, bind_eq_ok_iff.mpr ⟨_, _, Path.onFailure_eq_ok_iff.mpr ended, rfl⟩⟩
  unfold add replace Path.build
  rw [if_neg (Bool.eq_false_iff.mp plain.direct), ran]
  cases pending <;> rfl

theorem add_of_buildPrimary {table : SymbolTable} {arena roomy : Arena} {plain : Plain}
    {waiting : NodeId} {node : Option NodeId} {pending : Option Path.PendingBinding}
    (bare : plain.attr = none)
    (primed : Path.buildPrimary table true (some waiting) ⟨.ofText plain.text, arena⟩ =
      .ok (node, pending) ⟨plain.middle, roomy⟩) :
    table.add arena plain.text waiting =
      match pending with
      | none => ⟨node, table, roomy, []⟩
      | some wanted =>
        ⟨node, (Path.bind table roomy wanted).1, (Path.bind table roomy wanted).2, []⟩ := by
  have added := add_eq_of_buildPrimary primed
  rw [bare] at added
  exact added

/-- What there is below a new key once a value is stored at a path of it. At each level of the path
there are just the children up to its index, and no two paths of the key lead to one node. All nodes
are new, those beside the way are bare, and the value is the only one in the attributes. What was
there before is as it was. -/
structure Combed (arena : Arena) (plain : Plain) (value : Value) (tip : NodeId)
    (later : SymbolTable) (grown : Arena) : Prop where
  find : later.find grown plain.text = some tip
  count : grown.live = arena.live + (1 + (plain.numbers.map (· + 1)).sum)
  levels : ∀ side : Plain, side.key = plain.key → ∀ front index number behind,
    side.numbers = front ++ [index] → plain.numbers = front ++ number :: behind →
      ((later.find grown side.text).isSome = true ↔ index ≤ number)
  distinct : ∀ (one other : Plain) id, one.key = plain.key → other.key = plain.key →
    later.find grown one.text = some id → later.find grown other.text = some id →
      one.numbers = other.numbers
  beside : ∀ (side : Plain) id, side.key = plain.key → ∀ front index number behind,
    side.numbers = front ++ [index] → plain.numbers = front ++ number :: behind → index < number →
      later.find grown side.text = some id → grown.Bare id
  childless : grown.children tip = #[]
  marked : grown.attrs? tip = some (some (.single .value value))
  unmarked : ∀ (side : Plain) id, side.key = plain.key → later.find grown side.text = some id →
    id ≠ tip → grown.attrs? id = some none
  new : ∀ (side : Plain) id, side.key = plain.key → later.find grown side.text = some id →
    arena.contains id = false
  others : ∀ id, arena.contains id = true → grown.live? id = arena.live? id

section

variable {table : SymbolTable} {arena : Arena} {plain : Plain} {value : Value}

theorem Combed.of_comb {later : SymbolTable} {grown : Arena} {origin tip : NodeId}
    {nodes : List NodeId} (bound : later.lookup plain.key = some origin)
    (small : ∀ number ∈ plain.numbers, number < 65536)
    (comb : grown.Comb origin plain.numbers tip nodes) (nodup : (origin :: nodes).Nodup)
    (new : ∀ id ∈ origin :: nodes, arena.contains id = false)
    (others : ∀ id, id ∉ origin :: nodes → grown.live? id = arena.live? id)
    (count : grown.live = arena.live + (1 + nodes.length)) (childless : grown.children tip = #[])
    (marked : grown.attrs? tip = some (some (.single .value value))) :
    Combed arena plain value tip later grown := by
  have descends {side : Plain} {id : NodeId} (same : side.key = plain.key)
      (found : later.find grown side.text = some id) :
      grown.descend origin side.numbers = some id := by
    rcases find_eq_some_iff_descends.mp found with ⟨start, boundSide, -, reached⟩
    rw [same, bound] at boundSide
    cases boundSide
    exact reached
  have member {side : Plain} {id : NodeId} (same : side.key = plain.key)
      (found : later.find grown side.text = some id) : id ∈ origin :: nodes := by
    rcases comb.mem_of_descend childless (descends same found) with ⟨-, rfl⟩ | member
    · exact List.mem_cons_self
    · exact List.mem_cons_of_mem _ member
  exact {
    find := find_eq_some_iff_descends.mpr ⟨origin, bound, small_of_numbers small, comb.descend⟩
    count := by rw [count, comb.length_nodes]
    levels := fun side same front index number behind sideNumbers numbers => by
      have level : (grown.descend origin (front ++ [index])).isSome = true ↔ index ≤ number :=
        (numbers ▸ comb).isSome_descend_iff
      rw [← level, ← sideNumbers]
      constructor
      · intro found
        rcases Option.isSome_iff_exists.mp found with ⟨id, found⟩
        rw [descends same found, Option.isSome_some]
      · intro reached
        have within : index ≤ number := level.mp (sideNumbers ▸ reached)
        rw [numbers] at small
        rcases List.forall_mem_append.mp small with ⟨smallFront, smallBehind⟩
        have smallSide : ∀ wanted ∈ side.numbers, wanted < 65536 := by
          rw [sideNumbers]
          refine List.forall_mem_append.mpr ⟨smallFront, List.forall_mem_singleton.mpr ?_⟩
          exact Nat.lt_of_le_of_lt within (List.forall_mem_cons.mp smallBehind).1
        rcases Option.isSome_iff_exists.mp reached with ⟨id, reached⟩
        rw [find_eq_some_iff_descends.mpr
          ⟨origin, same ▸ bound, small_of_numbers smallSide, reached⟩, Option.isSome_some]
    distinct := fun one other id same sameToo found foundToo =>
      comb.descend_injective nodup childless (descends same found) (descends sameToo foundToo)
    beside := fun side id same front index number behind sideNumbers numbers less found => by
      have reached := descends same found
      rw [sideNumbers] at reached
      exact (numbers ▸ comb).bare_of_descend less reached
    childless := childless
    marked := marked
    unmarked := fun side id same found other => comb.blank_of_mem (member same found) other
    new := fun side id same found => new id (member same found)
    others := fun id live => others id fun inside => by
      rw [new id inside] at live
      cases live }

/-- A value that is stored at a plain path of a free key, with indices within the bound on child
lists, is found at the tip of a comb. -/
theorem set_combs (direct : table.registry.Direct) (wellFormed : arena.WellFormed)
    (unbound : table.lookup plain.key = none) (bare : plain.attr = none)
    (small : ∀ number ∈ plain.numbers, number < 65536) (value : Value) :
    ∃ tip, (table.set arena plain.text value true).result = some tip ∧
      Combed arena plain value tip (table.set arena plain.text value true).table
        (table.set arena plain.text value true).arena := by
  have named : (destinationAttr arena plain.attr true) = (some .value, arena) := by rw [bare]; rfl
  rcases plain.read_attr table arena plain.middle.position with ⟨finish, readAttr, ends⟩
  have read : table.destination arena (.ofText plain.text) = .ok (none, plain.attr) finish :=
    Path.destination_eq_ok_iff.mpr
      ⟨plain.middle, primary_of_unbound unbound small, readAttr, .inr ends⟩
  rcases set_of_missing direct value read (by rw [named]) with ⟨leaf, childless, attrs, same⟩
  rw [named] at same
  have placed := Arena.placed_alloc wellFormed childless
  have wellFormedStored := Arena.wellFormed_alloc wellFormed leaf
  have counted : (arena.alloc leaf).2.live = arena.live + 1 := Arena.live_alloc_leaf childless
  simp only at same
  generalize arena.alloc leaf = stored at same placed wellFormedStored counted
  rcases stored with ⟨waiting, stored⟩
  rcases Path.tips_buildPrimary direct wellFormedStored placed.live?_same unbound small with
    ⟨origin, fresh, nodes, roomy, primed, tips⟩
  have added := add_of_buildPrimary bare primed
  simp only at added
  rcases @Path.alike_bind table ⟨plain.key, origin, fresh⟩ roomy unbound with
    ⟨alike, unbinding, owners, live⟩
  have bound : (Path.bind table roomy ⟨plain.key, origin, fresh⟩).1.lookup plain.key = some origin :=
    (@Path.richer_bind table roomy ⟨plain.key, origin, fresh⟩ unbound).2.1
  generalize Path.bind table roomy ⟨plain.key, origin, fresh⟩ = binding
    at added alike unbinding owners live bound
  rcases binding with ⟨later, grown⟩
  rcases tips.owned with ⟨count, found, unownedOrigin⟩
  -- the leaf stands in a list or is bound, so it is not freed in the end
  have owned : grown.isUnowned waiting = false := by
    rw [Arena.isUnowned]
    by_cases bindsLeaf : waiting = origin
    · subst bindsLeaf
      rw [owners, Arena.owners?, found]
      simp
    · have positive : count ≠ 0 := fun zero => bindsLeaf (unownedOrigin zero).symm
      rw [Arena.owners?, unbinding waiting bindsLeaf, found]
      simp [positive]
  rw [same, added]
  simp only [Arena.releaseIfUnowned, owned, Bool.false_eq_true, ↓reduceIte]
  have stale : arena.contains waiting = false := by
    rw [Arena.contains, placed.live?_before]
    rfl
  have foundLeaf : roomy.attrs? waiting = some leaf.attrs ∧ roomy.children waiting = #[] := by
    rw [Arena.attrs?, Arena.node?, found, Arena.children_of_live found, childless]
    exact ⟨rfl, rfl⟩
  refine ⟨waiting, rfl, .of_comb bound small ?_ tips.nodup (fun id member => ?_) (fun id other => ?_)
    ?_ ?_ ?_⟩
  · exact tips.comb.congr tips.nodup fun id _ _ => alike id
  · by_cases here : id = waiting
    · rw [here, stale]
    · have old := tips.new id member here
      rwa [Arena.contains, placed.live?_other here] at old
  · have notOrigin : id ≠ origin := fun same => other (same ▸ List.mem_cons_self)
    have notWaiting : id ≠ waiting := fun same => other (same ▸ tips.comb.tip_mem)
    rw [unbinding id notOrigin, tips.others id other, placed.live?_other notWaiting]
  · rw [live, tips.count, counted]
    omega
  · rw [(alike waiting).children, foundLeaf.2]
  · rw [(alike waiting).attrs, foundLeaf.1, attrs]

end

def branching : Plain where
  key := "b"
  indices := [['2'], ['1']]
  attr := none
  isIdentifier_key := ⟨rfl, List.all_eq_true.mp rfl⟩
  isDigit_indices digits member := by
    simp only [List.mem_cons, List.not_mem_nil, or_false] at member
    rcases member with rfl | rfl
    · exact ⟨nofun, List.all_eq_true.mp rfl⟩
    · exact ⟨nofun, List.all_eq_true.mp rfl⟩
  isIdentifier_attr := nofun

/-- A node for the key, three below it and two below the last of them are new. -/
theorem set_combs_branching :
    keyed.1.registry.Direct ∧ keyed.2.WellFormed ∧ keyed.1.lookup branching.key = none ∧
      branching.text = "b[2][1]" ∧ (∀ number ∈ branching.numbers, number < 65536) ∧
      ∃ tip, (keyed.1.set keyed.2 branching.text (.text "x") true).result = some tip ∧
        (keyed.1.set keyed.2 branching.text (.text "x") true).arena.live = keyed.2.live + 6 ∧
        (keyed.1.set keyed.2 branching.text (.text "x") true).arena.attrs? tip =
          some (some (.single .value (.text "x"))) := by
  have direct : keyed.1.registry.Direct := Registry.direct_standard
  have wellFormed : keyed.2.WellFormed := balanced_keyed.accounts.steady.wellFormed
  have unbound : keyed.1.lookup branching.key = none := by
    simp [keyed, define, lookup, empty, branching]
  have small : ∀ number ∈ branching.numbers, number < 65536 := by decide +kernel
  rcases set_combs direct wellFormed unbound rfl small (.text "x") with ⟨tip, stored, combed⟩
  exact ⟨direct, wellFormed, unbound, rfl, small, tip, stored, combed.count, combed.marked⟩

end SymbolTable

end RecordGraph
