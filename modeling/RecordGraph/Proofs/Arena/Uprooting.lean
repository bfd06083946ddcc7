import RecordGraph.Proofs.Arena.Acyclic
import RecordGraph.Proofs.Arena.Planting

/-!
# Uprooting what was planted

New nodes hang below a new top that nobody owns, and some of them may hold nodes that were there
before. When the top is freed, all new nodes go with it, and they give up what they held. A node
that was there before has the owners then that it had. Only if it had none does it go too, for the
places that held it were its last owners.
-/

namespace RecordGraph.Arena

variable {origin arena : Arena} {owed : List NodeId} {holds : NodeId → Nat}

/-! ## What a teardown keeps -/

section

variable (kept : Arena → Prop)
  (released : ∀ {arena : Arena} {child : NodeId} {owed : List NodeId} (work : List NodeId),
    arena.Balances (child :: owed) holds → kept arena →
      kept (Arena.releaseChild (arena, work) child).1)
  (vacated : ∀ {arena : Arena} {id : NodeId} {node : Node},
    arena.slots[id.index]? = some ⟨id.generation, .dying node⟩ → kept arena →
      kept (arena.vacate id))

include released vacated

/-- What is kept when an owner is given up that was owed, and when the slot of a dying node is
emptied, is kept by all of a teardown. -/
theorem teardown_keeps (balances : arena.Balances owed holds) (keeps : kept arena) (rounds : Nat)
    (work : List NodeId) : kept (teardown rounds work arena) := by
  have releasedAll {children : List NodeId} {arena : Arena}
      (balances : arena.Balances (children ++ owed) holds) (keeps : kept arena)
      (work : List NodeId) : kept (children.foldl releaseChild (arena, work)).1 := by
    induction children generalizing arena work with
    | nil => exact keeps
    | cons child children induction =>
      exact induction (balances.releaseChild work) (released work balances keeps) _
  induction rounds generalizing arena work with
  | zero => exact keeps
  | succ rounds induction =>
    cases work with
    | nil => exact keeps
    | cons id work =>
      unfold teardown
      split
      · exact induction balances keeps work
      · rename_i children dying
        rcases exists_of_dyingChildren dying with ⟨node, found, rfl⟩
        simp only [← Array.foldl_toList]
        have owedNow := balances.vacate found
        exact induction (owedNow.releaseChildren work)
          (releasedAll owedNow (vacated found keeps) work) _

theorem release_keeps {id : NodeId} (balances : arena.Balances (id :: owed) holds)
    (keeps : kept arena) : kept (arena.release id) := by
  have first := released [] balances keeps
  have rest := balances.releaseChild []
  rcases releaseChild_cases arena [] id with
    ⟨stale, -⟩ | ⟨node, owners, found, ⟨last, same⟩ | ⟨several, same⟩⟩
  · simpa only [release, owners?, stale, Option.map_none] using keeps
  · rw [same] at first rest
    simp only [release, owners?, found, Option.map_some, last, ↓reduceIte]
    exact teardown_keeps kept released vacated rest first _ _
  · rw [same] at first
    simpa only [release, owners?, found, Option.map_some, Nat.not_le.mpr several, ↓reduceIte]
      using first

end

theorem live?_release_of_unowned {id free : NodeId} {node : Node}
    (balances : arena.Balances (id :: owed) holds) (unowned : arena.live? free = some (node, 0)) :
    (arena.release id).live? free = some (node, 0) := by
  refine release_keeps (fun arena => arena.live? free = some (node, 0))
    (fun {arena child owed} work balances unowned => ?_)
    (fun found unowned => (live?_vacate found free).trans unowned) balances unowned
  have different : free ≠ child := by
    rintro rfl
    have count := balances free
    rw [ownerCount_of_live unowned, List.count_cons_self] at count
    omega
  rcases releaseChild_cases arena work child with
    ⟨-, same⟩ | ⟨content, owners, found, ⟨-, same⟩ | ⟨-, same⟩⟩
  · rw [same]
    exact unowned
  · rw [same, condemn_of_live found, live?_putSlot_other (live?_eq_some_iff.mp found) different,
      unowned]
  · rw [same, countOwners_of_live found,
      live?_putSlot_other (live?_eq_some_iff.mp found) different, unowned]

/-! ## What a teardown leaves standing -/

structure Stands (origin arena : Arena) : Prop where
  node : ∀ {id node owners}, origin.live? id = some (node, owners) →
    ∃ count, arena.live? id = some (node, count) ∧ (owners = 0 → count = 0)

namespace Stands

theorem of_same (same : ∀ {id}, origin.contains id = true → arena.live? id = origin.live? id) :
    origin.Stands arena where
  node {_ node owners} found :=
    ⟨owners, (same (contains_iff.mpr ⟨node, owners, found⟩)).trans found, id⟩

variable (stands : origin.Stands arena) (steady : origin.Steady [] holds)

include stands

theorem of_other {later : Arena} {asked : NodeId} (stale : origin.live? asked = none)
    (same : ∀ {id}, id ≠ asked → later.live? id = arena.live? id) : origin.Stands later where
  node {id node owners} found := by
    rcases stands.node found with ⟨count, standing, none⟩
    have different : id ≠ asked := by
      rintro rfl
      rw [stale] at found
      cases found
    exact ⟨count, (same different).trans standing, none⟩

theorem vacate {id : NodeId} {node : Node}
    (found : arena.slots[id.index]? = some ⟨id.generation, .dying node⟩) :
    origin.Stands (arena.vacate id) :=
  ⟨fun known => by rw [live?_vacate found]; exact stands.node known⟩

include steady

/-- A standing node has all the owners that it had beside those that are about to be given up. -/
theorem owners_le (balances : arena.Balances owed holds) {id : NodeId} {node : Node}
    {owners count : Nat} (found : origin.live? id = some (node, owners))
    (standing : arena.live? id = some (node, count)) : owners + owed.count id ≤ count := by
  have before := steady.ownerCount_eq id
  have now := balances id
  have listed := occurrences_le_listed (fun found => (stands.node found).imp fun _ => And.left) id
  rw [ownerCount_of_live found, List.count_nil] at before
  rw [ownerCount_of_live standing] at now
  omega

/-- A standing node that is owed had an owner before: the one that is given up is not its last. -/
theorem releaseChild {child : NodeId} (balances : arena.Balances (child :: owed) holds)
    (work : List NodeId) : origin.Stands (Arena.releaseChild (arena, work) child).1 := by
  rcases releaseChild_cases arena work child with ⟨-, same⟩ | ⟨content, counted, standing, step⟩
  · rw [same]
    exact stands
  · have slot := live?_eq_some_iff.mp standing
    cases found : origin.live? child with
    | none =>
      apply stands.of_other found
      intro id different
      rcases step with ⟨-, same⟩ | ⟨-, same⟩
      · rw [same, condemn_of_live standing]
        exact live?_putSlot_other slot different
      · rw [same, countOwners_of_live standing]
        exact live?_putSlot_other slot different
    | some pair =>
      rcases pair with ⟨node, owners⟩
      rcases stands.node found with ⟨count, there, unowned⟩
      cases there.symm.trans standing
      have enough := stands.owners_le steady balances found standing
      rw [List.count_cons_self] at enough
      rcases step with ⟨last, -⟩ | ⟨several, same⟩
      · omega
      · rw [same, countOwners_of_live standing]
        refine ⟨fun {id other before} known => ?_⟩
        by_cases asked : id = child
        · subst asked
          cases known.symm.trans found
          rw [live?_putSlot_same slot]
          exact ⟨counted - 1, by simp [Slot.live?], by omega⟩
        · rw [live?_putSlot_other slot asked]
          exact stands.node known

theorem teardown (balances : arena.Balances owed holds) (rounds : Nat) (work : List NodeId) :
    origin.Stands (Arena.teardown rounds work arena) :=
  teardown_keeps origin.Stands
    (fun work balances stands => stands.releaseChild steady balances work)
    (fun found stands => stands.vacate found) balances stands rounds work

theorem release {id : NodeId} (owing : arena.Steady (id :: owed) holds) :
    origin.Stands (arena.release id) :=
  release_keeps origin.Stands (fun work balances stands => stands.releaseChild steady balances work)
    (fun found stands => stands.vacate found) owing.balances stands

theorem releaseIfUnowned {id : NodeId} (later : arena.Steady [] holds)
    (stale : origin.live? id = none) : origin.Stands (arena.releaseIfUnowned id) := by
  cases unowned : arena.isUnowned id with
  | false =>
    rw [Arena.releaseIfUnowned, if_neg (Bool.eq_false_iff.mp unowned)]
    exact stands
  | true =>
    rcases isUnowned_iff.mp unowned with ⟨node, found⟩
    have condemned : origin.Stands (arena.condemn id) := by
      apply stands.of_other stale
      intro other different
      rw [condemn_of_live found]
      exact live?_putSlot_other (live?_eq_some_iff.mp found) different
    rw [Arena.releaseIfUnowned, if_pos unowned]
    exact condemned.teardown steady (later.balances.condemn_unowned found) _ _

end Stands

theorem Wanes.children {before after : Arena} (wanes : before.Wanes after) {id : NodeId}
    (standing : after.contains id = true) : after.children id = before.children id := by
  rcases contains_iff.mp standing with ⟨node, owners, found⟩
  rcases wanes.live found with ⟨count, earlier, -⟩
  rw [children_of_live found, children_of_live earlier]

/-! ## Exchanging a child -/

section

variable {parent child old : NodeId} {index : Nat}

theorem isUnowned_exchanged (arena : Arena) (parent child : NodeId) (index : Nat) :
    (arena.exchanged parent index child).isUnowned child = false := by
  rw [exchanged, isUnowned_modifyNode, isUnowned_retain_self]

theorem Stands.setChild (stands : origin.Stands arena) (steady : origin.Steady [] holds)
    (later : arena.Steady [] holds) (stood : arena.child? parent index = some old)
    (new : origin.live? parent = none) (owned : origin.isUnowned child = false) :
    origin.Stands (arena.setChild parent index child).2 := by
  rw [setChild_of_child stood]
  split
  · rename_i allowed
    refine Stands.release ⟨fun {id node owners} found => ?_⟩ steady (later.exchange stood allowed.2)
    rcases stands.node found with ⟨count, standing, none⟩
    have different : id ≠ parent := by
      rintro rfl
      rw [new] at found
      cases found
    rw [live?_exchanged different]
    split
    · rename_i same
      subst same
      refine ⟨count + 1, by rw [standing, Option.map_some], fun zero => ?_⟩
      subst zero
      rw [isUnowned_iff.mpr ⟨node, found⟩] at owned
      cases owned
    · exact ⟨count, standing, none⟩
  · exact stands

end

/-! ## Freeing what was planted -/

/-- New nodes were stored, and only the tops have no owner. The nodes that were there before have
the content that they had. The new ones may hold some of them, but the ranks of new nodes rise from
parent to child. -/
structure Overgrown (holds : NodeId → Nat) (tops : List NodeId) (origin arena : Arena) :
    Prop where
  steady : arena.Steady [] holds
  follows : Follows tops origin arena
  old : ∀ {id node count}, origin.Issued id → arena.live? id = some (node, count) →
    ∃ owners, origin.live? id = some (node, owners)
  ranked : ∃ rank : NodeId → Nat, ∀ id child, ¬ origin.Issued id → ¬ origin.Issued child →
    child ∈ arena.children id → rank id < rank child

section

variable {tops : List NodeId} {top : NodeId} {before after : Arena}

theorem Plants.follows (plants : Plants holds [] tops before after) :
    Follows tops before after where
  contains {id} live := by
    by_cases issued : before.Issued id
    · rw [contains, plants.kept issued List.not_mem_nil] at live
      exact .inl live
    · exact .inr issued
  issued := plants.issued
  given member := (plants.top_fresh member).1
  unowned {id} zero := by
    rcases isUnowned_iff.mp zero with ⟨node, found⟩
    by_cases issued : before.Issued id
    · rw [plants.kept issued List.not_mem_nil] at found
      exact .inl (isUnowned_iff.mpr ⟨node, found⟩)
    · have count := plants.owners ⟨issued_of_live found, issued⟩
      rw [ownerCount_of_live found] at count
      by_contra other
      rw [if_neg (other ∘ .inr)] at count
      cases count

theorem Plants.stands (plants : Plants holds [] tops before after) : before.Stands after :=
  .of_same fun live => plants.kept (issued_of_contains live) List.not_mem_nil

theorem Plants.overgrown (plants : Plants holds [] tops before after) :
    Overgrown holds tops before after where
  steady := plants.steady
  follows := plants.follows
  old issued found := ⟨_, (plants.kept issued List.not_mem_nil).symm.trans found⟩
  ranked := by
    rcases plants.ranked with ⟨rank, rises⟩
    refine ⟨rank, fun id child new _ member => rises id child ⟨?_, new⟩ member⟩
    exact issued_of_contains (contains_of_mem_children member)

namespace Overgrown

theorem names (grown : Overgrown holds tops origin arena) (names : NameTable) :
    Overgrown holds tops origin { arena with names } where
  steady := (Settles.names arena names holds grown.steady).1
  follows := ⟨grown.follows.contains, grown.follows.issued, grown.follows.given,
    grown.follows.unowned⟩
  old := grown.old
  ranked := grown.ranked

theorem wanes {later : Arena} (grown : Overgrown holds tops origin arena)
    (steady : later.Steady [] holds) (wanes : arena.Wanes later) :
    Overgrown holds tops origin later where
  steady := steady
  follows := by
    have both := grown.follows.trans (.of_wanes wanes)
    rwa [List.append_nil] at both
  old issued found := by
    rcases wanes.live found with ⟨count, earlier, -⟩
    exact grown.old issued earlier
  ranked := by
    have sheds : arena.Sheds later := .of_live fun found =>
      (wanes.live found).elim fun count known => ⟨_, count, known.1, rfl⟩
    rcases grown.ranked with ⟨rank, rises⟩
    exact ⟨rank, fun id child new newChild member =>
      rises id child new newChild (sheds id child member)⟩

theorem setChild {parent child old : NodeId} {index : Nat}
    (grown : Overgrown holds tops origin arena) (stood : arena.child? parent index = some old)
    (new : ¬ origin.Issued parent) (issued : origin.Issued child) :
    Overgrown holds tops origin (arena.setChild parent index child).2 := by
  rw [setChild_of_child stood]
  split
  · rename_i allowed
    rcases (grown.steady.exchange stood allowed.2).release with ⟨steady, waning⟩
    constructor
    · exact steady
    · have follows := grown.follows.trans (follows_setChild arena parent index child)
      rwa [setChild_of_child stood, if_pos allowed, List.append_nil] at follows
    · intro id node count known found
      rcases waning.live found with ⟨earlier, linked, -⟩
      have different : id ≠ parent := by
        rintro rfl
        exact new known
      rw [live?_exchanged different] at linked
      split at linked
      · rename_i same
        rcases Option.map_eq_some_iff.mp linked with ⟨⟨content, owners⟩, before, equal⟩
        cases equal
        exact grown.old known (same ▸ before)
      · exact grown.old known linked
    · rcases grown.ranked with ⟨rank, rises⟩
      refine ⟨rank, fun id other newId newOther member => ?_⟩
      have linked := sheds_release _ old id other member
      rw [children_exchanged] at linked
      split at linked
      · rename_i same
        subst same
        rcases Array.mem_or_eq_of_mem_setIfInBounds linked with earlier | rfl
        · exact rises id other newId newOther earlier
        · exact absurd issued newOther
      · exact rises id other newId newOther linked
  · exact grown

theorem freed (grown : Overgrown holds [top] origin arena) :
    Overgrown holds [] origin (arena.releaseIfUnowned top) := by
  have released := grown.steady.releaseIfUnowned top
  have rest := grown.wanes released.1 released.2
  exact ⟨rest.steady, rest.follows.drop (isUnowned_releaseIfUnowned arena top), rest.old,
    rest.ranked⟩

variable (grown : Overgrown holds [] origin arena) (steady : origin.Steady [] holds)

include grown steady

/-- Where every new node has an owner there is none: their parents would be new nodes of ever lower
rank. -/
theorem stale_of_new {id : NodeId} (new : ¬ origin.Issued id) : arena.contains id = false := by
  rcases grown.ranked with ⟨rank, rises⟩
  induction height : rank id using Nat.strongRecOn generalizing id with
  | ind height induction =>
    subst height
    rw [Bool.eq_false_iff]
    intro live
    have owned : 0 < arena.ownerCount id := by
      rcases contains_iff.mp live with ⟨node, owners, found⟩
      rw [ownerCount_of_live found]
      refine Nat.pos_of_ne_zero fun zero => ?_
      subst zero
      rcases grown.follows.unowned (isUnowned_iff.mpr ⟨node, found⟩) with earlier | top
      · rcases isUnowned_iff.mp earlier with ⟨content, known⟩
        exact new (issued_of_live known)
      · cases top
    rw [grown.steady.ownerCount_eq, steady.holds_eq_zero new, List.count_nil] at owned
    rcases exists_parent owned with ⟨parent, member⟩
    have parentLive := contains_of_mem_children member
    by_cases issued : origin.Issued parent
    · -- an old parent holds what it held before
      rcases contains_iff.mp parentLive with ⟨node, count, found⟩
      rcases grown.old issued found with ⟨owners, known⟩
      rw [children_of_live found, ← children_of_live known] at member
      exact new (issued_of_contains (steady.child_live member))
    · rw [induction _ (rises parent id issued new member) issued rfl] at parentLive
      cases parentLive

theorem contains_origin {id : NodeId} (live : arena.contains id = true) :
    origin.contains id = true := by
  rcases grown.follows.contains live with earlier | new
  · exact earlier
  · rw [grown.stale_of_new steady new] at live
    cases live

theorem occurrences_le (id : NodeId) : arena.occurrences id ≤ origin.occurrences id := by
  rw [← total_listed steady.not_dying]
  apply occurrences_le_listed
  intro other node count found
  have live := grown.contains_origin steady (contains_iff.mpr ⟨node, count, found⟩)
  exact grown.old (issued_of_contains live) found

theorem restored (stands : origin.Stands arena) {id : NodeId} :
    arena.live? id = origin.live? id := by
  cases known : origin.live? id with
  | none =>
    cases found : arena.live? id with
    | none => rfl
    | some content =>
      have live := grown.contains_origin steady (contains_iff.mpr ⟨content.1, content.2, found⟩)
      rw [contains, known] at live
      cases live
  | some content =>
    rcases content with ⟨node, owners⟩
    rcases stands.node known with ⟨count, standing, -⟩
    have atLeast := stands.owners_le steady grown.steady.balances known standing
    have atMost := grown.occurrences_le steady id
    have before := steady.ownerCount_eq id
    have now := grown.steady.ownerCount_eq id
    rw [ownerCount_of_live known] at before
    rw [ownerCount_of_live standing] at now
    have same : count = owners := by omega
    rw [standing, same]

end Overgrown

/-- Where the old nodes stand, freeing the top of the new ones leaves what was there before. -/
theorem Overgrown.uprooted (grown : Overgrown holds [top] origin arena)
    (steady : origin.Steady [] holds) (new : ¬ origin.Issued top) (stands : origin.Stands arena)
    (id : NodeId) : (arena.releaseIfUnowned top).live? id = origin.live? id := by
  exact grown.freed.restored steady
    (stands.releaseIfUnowned steady grown.steady (live?_of_not_issued new))

theorem Overgrown.uprooted_owned (grown : Overgrown holds [top] origin arena)
    (steady : origin.Steady [] holds) {id : NodeId} (unowned : origin.isUnowned id = true)
    (owned : arena.isUnowned id = false) : (arena.releaseIfUnowned top).live? id = none := by
  cases left : (arena.releaseIfUnowned top).live? id with
  | none => rfl
  | some content =>
    rcases content with ⟨node, owners⟩
    rcases isUnowned_iff.mp unowned with ⟨before, known⟩
    have counted := steady.ownerCount_eq id
    have counts := grown.freed.steady.ownerCount_eq id
    have atMost := grown.freed.occurrences_le steady id
    rw [ownerCount_of_live known] at counted
    rw [ownerCount_of_live left] at counts
    have zero : owners = 0 := by omega
    subst zero
    rcases (wanes_releaseIfUnowned arena top).live left with ⟨earlier, found, -, nothing⟩
    rw [nothing rfl] at found
    rw [isUnowned_iff.mpr ⟨node, found⟩] at owned
    cases owned

theorem Plants.uprooted (plants : Plants holds [] [top] before after)
    (steady : before.Steady [] holds) (id : NodeId) :
    (after.releaseIfUnowned top).live? id = before.live? id :=
  plants.overgrown.uprooted steady (plants.top_fresh (List.mem_singleton_self top)).2 plants.stands
    id

end

end RecordGraph.Arena
