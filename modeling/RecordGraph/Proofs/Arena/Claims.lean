import RecordGraph.Proofs.Arena.Ledger

/-!
# Claims on nodes

Bindings and callers claim nodes. A claim outlives its node, and then it counts no more: an arena is
accounted for if it is balanced with the claims on live nodes as holds. Because no id is given out
twice, a claim on a node that is gone never falls on another one.

What a caller may leave behind is said by `Follows`: nodes come only into ids that were never given
out, and every node without owners either had none before or is listed as fresh.
-/

namespace RecordGraph.Arena

/-- Every id given out stays so, fresh ids are given out, new nodes have new ids, and nodes without
owners are either fresh or had none before. -/
structure Follows (fresh : List NodeId) (before after : Arena) : Prop where
  contains : ∀ {id}, after.contains id = true → before.contains id = true ∨ ¬ before.Issued id
  issued : ∀ {id}, before.Issued id → after.Issued id
  given : ∀ {id}, id ∈ fresh → after.Issued id
  unowned : ∀ {id}, after.isUnowned id = true → before.isUnowned id = true ∨ id ∈ fresh

theorem isUnowned_iff {arena : Arena} {id : NodeId} :
    arena.isUnowned id = true ↔ ∃ node, arena.live? id = some (node, 0) := by
  cases found : arena.live? id with
  | none => simp [isUnowned, owners?, found]
  | some content =>
    obtain ⟨node, owners⟩ := content
    simp [isUnowned, owners?, found]

theorem issued_of_contains {arena : Arena} {id : NodeId} (live : arena.contains id = true) :
    arena.Issued id := by
  obtain ⟨node, owners, found⟩ := contains_iff.mp live
  exact issued_of_live found

namespace Follows

variable {before middle after : Arena} {fresh more : List NodeId}

theorem refl (arena : Arena) : Follows [] arena arena :=
  ⟨.inl, id, nofun, .inl⟩

theorem trans (left : Follows fresh before middle) (right : Follows more middle after) :
    Follows (fresh ++ more) before after where
  contains live := by
    rcases right.contains live with liveMiddle | new
    · exact left.contains liveMiddle
    · exact .inr fun issued => new (left.issued issued)
  issued := right.issued ∘ left.issued
  given member := by
    rcases List.mem_append.mp member with earlier | later
    · exact right.issued (left.given earlier)
    · exact right.given later
  unowned zero := by
    rcases right.unowned zero with zeroMiddle | member
    · exact (left.unowned zeroMiddle).imp_right (List.mem_append_left _)
    · exact .inr (List.mem_append_right _ member)

theorem drop {id : NodeId} (follows : Follows (id :: fresh) before after)
    (owned : after.isUnowned id = false) : Follows fresh before after where
  contains := follows.contains
  issued := follows.issued
  given member := follows.given (List.mem_cons_of_mem _ member)
  unowned {other} zero := by
    rcases follows.unowned zero with earlier | member
    · exact .inl earlier
    · rcases List.mem_cons.mp member with same | member
      · rw [same, owned] at zero
        cases zero
      · exact .inr member

/-- Where every node has an owner and no new one is without, every node has one afterwards. -/
theorem owned (follows : Follows [] before after) (owned : ∀ id, before.isUnowned id = false)
    (id : NodeId) : after.isUnowned id = false := by
  rw [Bool.eq_false_iff]
  intro unowned
  rcases follows.unowned unowned with earlier | member
  · rw [owned] at earlier
    cases earlier
  · cases member

theorem of_wanes (wanes : before.Wanes after) : Follows [] before after where
  contains live := .inl (wanes.contains live)
  issued := wanes.issued
  given := nofun
  unowned zero := by
    obtain ⟨node, found⟩ := isUnowned_iff.mp zero
    obtain ⟨earlier, foundEarlier, _, zeroEarlier⟩ := wanes.live found
    rw [zeroEarlier rfl] at foundEarlier
    exact .inl (isUnowned_iff.mpr ⟨node, foundEarlier⟩)

end Follows

section Steps

variable {arena : Arena}

theorem issued_updateLive_iff (id : NodeId) {change : Node → Nat → SlotState}
    (occupied : ∀ node owners, change node owners ≠ .free) {other : NodeId} :
    (arena.updateLive id change).Issued other ↔ arena.Issued other := by
  cases found : arena.live? id with
  | none => rw [updateLive_of_stale found]
  | some content =>
    rw [updateLive_of_live found]
    exact issued_putSlot_iff (live?_eq_some_iff.mp found) (by simp) (occupied _ _)

theorem issued_updateLive (id : NodeId) {change : Node → Nat → SlotState}
    (occupied : ∀ node owners, change node owners ≠ .free) {other : NodeId}
    (issued : arena.Issued other) : (arena.updateLive id change).Issued other :=
  (issued_updateLive_iff id occupied).mpr issued

theorem isUnowned_retain_self (arena : Arena) (id : NodeId) :
    (arena.retain id).isUnowned id = false := by
  rw [Bool.eq_false_iff]
  intro unowned
  rcases isUnowned_iff.mp unowned with ⟨node, found⟩
  rw [live?_retain, if_pos rfl] at found
  cases known : arena.live? id <;> simp [known] at found

theorem isUnowned_modifyNode (arena : Arena) (id asked : NodeId) (change : Node → Node) :
    (arena.modifyNode id change).isUnowned asked = arena.isUnowned asked := by
  rw [isUnowned, owners?, live?_modifyNode, isUnowned, owners?]
  split
  · rename_i here
    rw [here, Option.map_map]
    rfl
  · rfl

theorem follows_retain (arena : Arena) (id : NodeId) : Follows [] arena (arena.retain id) where
  contains live := .inl (by simpa using live)
  issued := issued_updateLive id (by simp)
  given := nofun
  unowned {other} zero := by
    obtain ⟨node, found⟩ := isUnowned_iff.mp zero
    rw [live?_retain] at found
    split at found
    · cases known : arena.live? id <;> simp [known] at found
    · exact .inl (isUnowned_iff.mpr ⟨node, found⟩)

theorem follows_modifyNode (arena : Arena) (id : NodeId) (change : Node → Node) :
    Follows [] arena (arena.modifyNode id change) where
  contains live := .inl (by simpa using live)
  issued := issued_updateLive id (by simp)
  given := nofun
  unowned zero := .inl (isUnowned_modifyNode arena id _ change ▸ zero)

theorem Placed.follows {later : Arena} {node : Node} {id : NodeId}
    (placed : arena.Placed node id later) : Follows [id] arena later where
  contains {other} live := by
    by_cases same : other = id
    · exact .inr (same ▸ placed.not_issued)
    · refine .inl ?_
      rwa [Arena.contains, placed.live?_other same] at live
  issued := placed.issued
  given {other} member := by
    rw [List.mem_singleton.mp member]
    exact issued_of_live placed.live?_same
  unowned {other} zero := by
    by_cases same : other = id
    · exact .inr (by simp [same])
    · refine .inl ?_
      rwa [isUnowned, owners?, placed.live?_other same] at zero

theorem follows_retainAll (arena : Arena) (children : List NodeId) :
    Follows [] arena (children.foldl Arena.retain arena) := by
  induction children generalizing arena with
  | nil => exact .refl arena
  | cons child children induction =>
    exact (follows_retain arena child).trans (induction (arena.retain child))

theorem wellFormed_updateLive (wellFormed : arena.WellFormed) (id : NodeId)
    {change : Node → Nat → SlotState} (occupied : ∀ node owners, change node owners ≠ .free) :
    (arena.updateLive id change).WellFormed := by
  cases found : arena.live? id with
  | none => rwa [updateLive_of_stale found]
  | some content =>
    rw [updateLive_of_live found]
    exact wellFormed.putSlot (live?_eq_some_iff.mp found) (by simp) (occupied _ _)

theorem wellFormed_modifyNode (wellFormed : arena.WellFormed) (id : NodeId)
    (change : Node → Node) : (arena.modifyNode id change).WellFormed :=
  wellFormed_updateLive wellFormed id (by simp)

theorem wellFormed_pushChild (wellFormed : arena.WellFormed) (parent child : NodeId) :
    (arena.pushChild parent child).2.WellFormed := by
  unfold pushChild
  split
  · exact wellFormed_modifyNode (wellFormed_updateLive wellFormed child (by simp)) parent _
  · exact wellFormed

theorem wellFormed_adopt (wellFormed : arena.WellFormed) (node : Node) :
    (arena.adopt node).2.WellFormed :=
  adopt_induction node wellFormed fun _ child kept => wellFormed_updateLive kept child (by simp)

theorem follows_adopt (arena : Arena) (node : Node) : Follows [] arena (arena.adopt node).2 := by
  rw [adopt_eq_retainAll]
  exact follows_retainAll arena _

theorem follows_alloc (wellFormed : arena.WellFormed) (node : Node) :
    Follows [(arena.alloc node).1] arena (arena.alloc node).2 :=
  (follows_adopt arena node).trans (placed_place (wellFormed_adopt wellFormed node) _).follows

theorem names_adopt (arena : Arena) (node : Node) : (arena.adopt node).2.names = arena.names :=
  @adopt_induction arena (fun later => later.names = arena.names) node rfl fun _ _ same => same

theorem names_alloc (wellFormed : arena.WellFormed) (node : Node) :
    (arena.alloc node).2.names = arena.names :=
  (placed_place (wellFormed_adopt wellFormed node) _).names.trans (names_adopt arena node)

theorem not_issued_alloc (wellFormed : arena.WellFormed) (node : Node) :
    ¬ arena.Issued (arena.alloc node).1 := fun issued =>
  (placed_place (wellFormed_adopt wellFormed node) _).not_issued
    ((follows_adopt arena node).issued issued)

theorem follows_pushChild (arena : Arena) (parent child : NodeId) :
    Follows [] arena (arena.pushChild parent child).2 := by
  unfold pushChild
  split
  · exact (follows_retain arena child).trans (follows_modifyNode ..)
  · exact .refl arena

theorem issued_pushChild_iff (arena : Arena) (parent child id : NodeId) :
    (arena.pushChild parent child).2.Issued id ↔ arena.Issued id := by
  unfold pushChild
  split
  · exact (issued_updateLive_iff parent (by simp)).trans (issued_updateLive_iff child (by simp))
  · exact Iff.rfl

theorem contains_pushChild (arena : Arena) (parent child id : NodeId) :
    (arena.pushChild parent child).2.contains id = arena.contains id := by
  unfold pushChild
  split
  · rw [contains_modifyNode, contains_retain]
  · rfl

section Placed

variable {later : Arena} {node : Node} {id parent : NodeId} (placed : arena.Placed node id later)
  (live : arena.contains parent = true)
include placed live

theorem Placed.pushChild_eq : later.pushChild parent id =
    (true, (later.retain id).modifyNode parent (·.push id)) := by
  have linkable : later.canLink id = true := by
    simp [canLink, placed.live?_same]
  simp [pushChild, placed.contains live, linkable]

theorem Placed.pushed : (later.pushChild parent id).1 = true := by
  rw [placed.pushChild_eq live]

theorem Placed.ne_parent : parent ≠ id := by
  rintro rfl
  exact placed.not_issued (issued_of_contains live)

theorem Placed.live?_pushChild (other : NodeId) : (later.pushChild parent id).2.live? other =
    if other = parent then (arena.live? parent).map fun content => (content.1.push id, content.2)
    else if other = id then some (node, 1) else arena.live? other := by
  have different := placed.ne_parent live
  rw [placed.pushChild_eq live, live?_link later different, placed.live?_other different,
    placed.live?_same]
  split
  · rfl
  · split
    · rfl
    · rename_i old
      exact placed.live?_other old

end Placed

theorem isUnowned_pushChild {parent child : NodeId}
    (pushed : (arena.pushChild parent child).1 = true) :
    (arena.pushChild parent child).2.isUnowned child = false := by
  unfold pushChild at pushed ⊢
  split at pushed
  · rename_i allowed
    simp only [allowed, ↓reduceIte]
    rw [Bool.eq_false_iff]
    intro unowned
    have earlier := (follows_modifyNode (arena.retain child) parent (·.push child)).unowned unowned
    obtain ⟨node, found⟩ := isUnowned_iff.mp (earlier.resolve_right List.not_mem_nil)
    rw [live?_retain] at found
    cases known : arena.live? child <;> simp [known] at found
  · cases pushed

theorem follows_setChild (arena : Arena) (parent : NodeId) (index : Nat) (child : NodeId) :
    Follows [] arena (arena.setChild parent index child).2 := by
  rcases setChild_cases arena parent index child with same | ⟨-, same⟩ | ⟨old, -, -, same⟩
  · rw [same]
    exact .refl arena
  · rw [same]
    exact follows_pushChild arena parent child
  · rw [same]
    exact ((follows_retain arena child).trans (follows_modifyNode ..)).trans
      (.of_wanes (wanes_release _ old))

end Steps

/-! ## Changes that settle their accounts -/

def Settles (fresh : List NodeId) (before after : Arena) : Prop :=
  ∀ holds, before.Steady [] holds → after.Steady [] holds ∧ Follows fresh before after

namespace Settles

variable {before middle after : Arena} {fresh more : List NodeId}

theorem refl (arena : Arena) : Settles [] arena arena :=
  fun _ steady => ⟨steady, .refl arena⟩

theorem trans (left : Settles fresh before middle) (right : Settles more middle after) :
    Settles (fresh ++ more) before after := fun _ steady =>
  have first := left _ steady
  have second := right _ first.1
  ⟨second.1, first.2.trans second.2⟩

theorem andThen (left : Settles fresh before middle) (right : Settles [] middle after) :
    Settles fresh before after := by
  have both := left.trans right
  rwa [List.append_nil] at both

theorem drop_owned {id : NodeId} (settles : Settles (id :: fresh) before after)
    (owned : after.isUnowned id = false) : Settles fresh before after := fun _ steady =>
  have first := settles _ steady
  ⟨first.1, first.2.drop owned⟩

theorem drop {id : NodeId} (settles : Settles (id :: fresh) before after) :
    Settles fresh before (after.releaseIfUnowned id) := fun _ steady =>
  have first := settles _ steady
  have released := first.1.releaseIfUnowned id
  have follows : Follows (id :: fresh) before (after.releaseIfUnowned id) := by
    have both := first.2.trans (.of_wanes released.2)
    rwa [List.append_nil] at both
  ⟨released.1, follows.drop (isUnowned_releaseIfUnowned after id)⟩

theorem childless (arena : Arena) (id : NodeId) {change : Node → Node}
    (unchanged : ∀ node, (change node).childArray = node.childArray) :
    Settles [] arena (arena.modifyNode id change) := fun _ steady =>
  ⟨steady.modifyNode_childless unchanged, follows_modifyNode arena id change⟩

theorem ensureChildren (arena : Arena) (id : NodeId) :
    Settles [] arena (arena.ensureChildren id) := fun _ steady =>
  ⟨steady.ensureChildren id, follows_modifyNode arena id _⟩

theorem names (arena : Arena) (names : NameTable) : Settles [] arena { arena with names } :=
  fun _ steady =>
    ⟨⟨⟨steady.wellFormed.free_nodup, steady.wellFormed.mem_free, steady.wellFormed.live_eq⟩,
        steady.balances, steady.work_nodup, steady.mem_work⟩,
      ⟨.inl, id, nofun, .inl⟩⟩

theorem alloc (arena : Arena) (node : Node) :
    Settles [(arena.alloc node).1] arena (arena.alloc node).2 := fun _ steady =>
  ⟨steady.alloc node, follows_alloc steady.wellFormed node⟩

theorem releaseIfUnowned (arena : Arena) (id : NodeId) :
    Settles [] arena (arena.releaseIfUnowned id) := fun _ steady =>
  have released := steady.releaseIfUnowned id
  ⟨released.1, .of_wanes released.2⟩

theorem pushChild (arena : Arena) (parent child : NodeId) :
    Settles [] arena (arena.pushChild parent child).2 := fun _ steady =>
  ⟨steady.pushChild parent child, follows_pushChild arena parent child⟩

theorem setChild (arena : Arena) (parent : NodeId) (index : Nat) (child : NodeId) :
    Settles [] arena (arena.setChild parent index child).2 := fun _ steady =>
  ⟨steady.setChild parent index child, follows_setChild arena parent index child⟩

end Settles

/-! ## Claims -/

def standing (arena : Arena) (claims : NodeId → Nat) (id : NodeId) : Nat :=
  if arena.contains id then claims id else 0

/-- The arena is balanced with the claims on live nodes as holds. Claims on nodes that are gone may
remain, for their ids are not given out again. -/
structure Accounts (arena : Arena) (claims : NodeId → Nat) : Prop where
  steady : arena.Steady [] (arena.standing claims)
  issued : ∀ {id}, 0 < claims id → arena.Issued id

namespace Accounts

variable {before after arena : Arena} {fresh : List NodeId} {claims others : NodeId → Nat}

/-- A steady arena whose holds were the standing claims on an earlier one accounts for them. -/
private theorem of_follows (issued : ∀ {id}, 0 < claims id → before.Issued id)
    (follows : Follows fresh before after) (steady : after.Steady [] (before.standing claims)) :
    after.Accounts claims where
  steady := by
    apply steady.hold
    intro id
    have count := steady.ownerCount_eq id
    simp only [standing, List.count_nil] at count ⊢
    cases live : after.contains id with
    | false =>
      rw [ownerCount_of_stale (live?_of_not_contains live)] at count
      simp only [Bool.false_eq_true, ↓reduceIte]
      omega
    | true =>
      rcases follows.contains live with earlier | new
      · simp [earlier]
      · have none : claims id = 0 := by
          by_contra some
          exact new (issued (Nat.pos_of_ne_zero some))
        simp [none]
  issued positive := follows.issued (issued positive)

theorem settle (accounts : before.Accounts claims) (settles : Settles fresh before after) :
    after.Accounts claims :=
  have settled := settles _ accounts.steady
  of_follows accounts.issued settled.2 settled.1

theorem of_steady (steady : arena.Steady [] claims) : arena.Accounts claims := by
  have held {id : NodeId} (claimed : 0 < claims id) : arena.contains id = true := by
    have count := steady.ownerCount_eq id
    exact contains_of_ownerCount_pos (by omega)
  refine ⟨steady.hold fun id => ?_, fun claimed => issued_of_contains (held claimed)⟩
  rw [standing]
  split
  · rfl
  · rename_i stale
    have none : claims id = 0 := Nat.eq_zero_of_not_pos fun claimed => stale (held claimed)
    rw [none]

theorem steady_of_live (accounts : arena.Accounts claims)
    (live : ∀ id, 0 < claims id → arena.contains id = true) : arena.Steady [] claims := by
  apply accounts.steady.hold
  intro id
  rw [standing]
  split
  · rfl
  · rename_i stale
    have none : claims id = 0 := Nat.eq_zero_of_not_pos fun claimed => stale (live id claimed)
    rw [none]

theorem held (accounts : before.Accounts claims) (settles : Settles fresh before after)
    {id : NodeId} (claimed : 0 < claims id) (live : before.contains id = true) :
    after.contains id = true := by
  have count := (settles _ accounts.steady).1.ownerCount_eq id
  simp only [standing, live, ↓reduceIte] at count
  exact contains_of_ownerCount_pos (by omega)

theorem congr (accounts : arena.Accounts claims) (same : ∀ id, claims id = others id) :
    arena.Accounts others := by
  rwa [← funext same]

theorem claim (accounts : arena.Accounts claims) {id : NodeId} (issued : arena.Issued id)
    (more : ∀ other, others other = claims other + [id].count other) :
    (arena.retain id).Accounts others where
  steady := by
    cases live : arena.contains id with
    | false =>
      rw [retain_of_stale (live?_of_not_contains live)]
      apply accounts.steady.hold
      intro other
      by_cases same : other = id
      · simp [standing, same, live]
      · simp [standing, more, Ne.symm same]
    | true =>
      apply (accounts.steady.retain live).hold
      intro other
      by_cases same : other = id
      · subst same
        simp only [standing, contains_retain, live, more, List.count_cons_self, List.count_nil,
          ↓reduceIte]
        omega
      · simp [standing, more, Ne.symm same]
  issued {other} positive := by
    apply (follows_retain arena id).issued
    rw [more] at positive
    by_cases same : other = id
    · rwa [same]
    · simp only [List.count_cons_of_ne (Ne.symm same), List.count_nil, Nat.add_zero] at positive
      exact accounts.issued positive

private theorem owed (accounts : arena.Accounts claims) {id : NodeId}
    (live : arena.contains id = true)
    (less : ∀ other, claims other = others other + [id].count other) :
    arena.Steady [id] (arena.standing others) := by
  apply accounts.steady.hold
  intro other
  by_cases same : other = id
  · subst same
    simp only [standing, live, less, List.count_cons_self, List.count_nil, ↓reduceIte]
    omega
  · simp [standing, less, Ne.symm same]

theorem unclaim (accounts : arena.Accounts claims) {id : NodeId}
    (less : ∀ other, claims other = others other + [id].count other) :
    (arena.release id).Accounts others ∧ Follows [] arena (arena.release id) := by
  have issued {other : NodeId} (positive : 0 < others other) : arena.Issued other :=
    accounts.issued (by rw [less]; omega)
  cases live : arena.contains id with
  | false =>
    have stale := live?_of_not_contains live
    have same : arena.release id = arena := by simp [release, owners?, stale]
    rw [same]
    refine ⟨⟨accounts.steady.hold fun other => ?_, issued⟩, .refl arena⟩
    by_cases same : other = id
    · simp [standing, same, live]
    · simp [standing, less, Ne.symm same]
  | true =>
    obtain ⟨released, wanes⟩ := (accounts.owed live less).release
    exact ⟨of_follows issued (.of_wanes wanes) released, .of_wanes wanes⟩

theorem held_release (accounts : arena.Accounts claims) {id asked : NodeId}
    (less : ∀ other, claims other = others other + [id].count other)
    (claimed : 0 < others asked) (askedLive : arena.contains asked = true) :
    (arena.release id).contains asked = true := by
  cases live : arena.contains id with
  | false => simpa [release, owners?, live?_of_not_contains live] using askedLive
  | true =>
    have count := (accounts.owed live less).release.1.ownerCount_eq asked
    simp only [standing, askedLive, ↓reduceIte] at count
    exact contains_of_ownerCount_pos (by omega)

theorem isUnowned_eq_false (accounts : arena.Accounts claims) {id : NodeId}
    (claimed : 0 < claims id) : arena.isUnowned id = false := by
  rw [Bool.eq_false_iff]
  intro unowned
  obtain ⟨node, found⟩ := isUnowned_iff.mp unowned
  have count := accounts.steady.ownerCount_eq id
  rw [ownerCount_of_live found] at count
  simp only [standing, contains_iff.mpr ⟨node, 0, found⟩, ↓reduceIte] at count
  omega

end Accounts

end RecordGraph.Arena
