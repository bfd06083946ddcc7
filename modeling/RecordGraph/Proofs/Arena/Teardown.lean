import RecordGraph.Proofs.Arena.Slots

/-!
# Owner balance and teardown

An arena is balanced when every count of owners is the number of places in child lists that hold the
node, the owners that are about to be given up, and the holds from outside. A teardown keeps this
balance: a node that dies moves its children from child lists to the owners to be given up, and they
are given up one by one.
-/

namespace RecordGraph

namespace Slot

def listed (id : NodeId) (slot : Slot) : Nat :=
  match slot.state with
  | .live node _ | .dying node => node.childArray.count id
  | .free => 0

def occupied (slot : Slot) : Nat :=
  match slot.state with
  | .live _ _ | .dying _ => 1
  | .free => 0

end Slot

namespace Arena

def Issued (arena : Arena) (id : NodeId) : Prop :=
  ∃ slot, arena.slots[id.index]? = some slot ∧
    (id.generation < slot.generation ∨ id.generation = slot.generation ∧ slot.state ≠ .free)

structure WellFormed (arena : Arena) : Prop where
  free_nodup : arena.free.Nodup
  mem_free : ∀ index, index ∈ arena.free ↔
    ∃ generation, arena.slots[index]? = some ⟨generation, .free⟩
  live_eq : arena.live = arena.total Slot.occupied

def Dying (arena : Arena) (id : NodeId) : Prop :=
  ∃ node, arena.slots[id.index]? = some ⟨id.generation, .dying node⟩

def Balances (arena : Arena) (owed : List NodeId) (holds : NodeId → Nat) : Prop :=
  ∀ id, arena.ownerCount id = arena.total (Slot.listed id) + owed.count id + holds id

structure Wanes (before after : Arena) : Prop where
  live : ∀ {id node owners}, after.live? id = some (node, owners) →
    ∃ earlier, before.live? id = some (node, earlier) ∧ owners ≤ earlier ∧
      (owners = 0 → earlier = 0)
  issued : ∀ {id}, before.Issued id → after.Issued id
  names : after.names = before.names

namespace Wanes

theorem refl (arena : Arena) : arena.Wanes arena :=
  ⟨fun found => ⟨_, found, Nat.le_refl _, id⟩, id, rfl⟩

theorem trans {first second third : Arena} (left : first.Wanes second)
    (right : second.Wanes third) : first.Wanes third where
  live found := by
    obtain ⟨middle, foundMiddle, middleLe, middleZero⟩ := right.live found
    obtain ⟨earlier, foundEarlier, earlierLe, earlierZero⟩ := left.live foundMiddle
    exact ⟨earlier, foundEarlier, Nat.le_trans middleLe earlierLe, earlierZero ∘ middleZero⟩
  issued := right.issued ∘ left.issued
  names := right.names.trans left.names

theorem contains {before after : Arena} (wanes : before.Wanes after) {id : NodeId}
    (live : after.contains id = true) : before.contains id = true := by
  obtain ⟨node, owners, found⟩ := contains_iff.mp live
  obtain ⟨earlier, foundEarlier, _⟩ := wanes.live found
  exact contains_iff.mpr ⟨node, earlier, foundEarlier⟩

end Wanes

theorem issued_of_live {arena : Arena} {id : NodeId} {node : Node} {owners : Nat}
    (found : arena.live? id = some (node, owners)) : arena.Issued id :=
  ⟨_, live?_eq_some_iff.mp found, .inr ⟨rfl, by simp⟩⟩

theorem live?_of_not_issued {arena : Arena} {id : NodeId} (new : ¬ arena.Issued id) :
    arena.live? id = none := by
  cases found : arena.live? id with
  | none => rfl
  | some content => exact absurd (issued_of_live found) new

/-! ## A new state in the same generation -/

section Put

variable {arena : Arena} {id : NodeId} {old new : SlotState}

theorem live?_putSlot_same (found : arena.slots[id.index]? = some ⟨id.generation, old⟩) :
    (arena.putSlot id.index ⟨id.generation, new⟩).live? id =
      (Slot.mk id.generation new).live? id.generation := by
  rw [live?, putSlot_slots_same found, Option.bind_some]

theorem live?_putSlot_other (found : arena.slots[id.index]? = some ⟨id.generation, old⟩)
    {other : NodeId} (different : other ≠ id) :
    (arena.putSlot id.index ⟨id.generation, new⟩).live? other = arena.live? other := by
  by_cases same : id.index = other.index
  · have generations : id.generation ≠ other.generation := fun equal =>
      different (by cases id; cases other; simp_all)
    rw [live?, live?, ← same, putSlot_slots_same found, found]
    cases old <;> cases new <;> simp [Slot.live?, generations]
  · rw [live?, live?, putSlot_slots_other _ same]

theorem WellFormed.putSlot (wellFormed : arena.WellFormed)
    (found : arena.slots[id.index]? = some ⟨id.generation, old⟩) (oldOccupied : old ≠ .free)
    (newOccupied : new ≠ .free) : (arena.putSlot id.index ⟨id.generation, new⟩).WellFormed where
  free_nodup := wellFormed.free_nodup
  mem_free index := by
    rw [putSlot_free, wellFormed.mem_free]
    by_cases same : id.index = index
    · subst same
      rw [putSlot_slots_same found, found]
      simp [oldOccupied, newOccupied]
    · rw [putSlot_slots_other _ same]
  live_eq := by
    have change := total_putSlot found ⟨id.generation, new⟩ Slot.occupied
    have weights : ∀ state : SlotState, state ≠ .free →
        Slot.occupied ⟨id.generation, state⟩ = 1 := by
      intro state occupied
      cases state <;> simp_all [Slot.occupied]
    rw [weights old oldOccupied, weights new newOccupied] at change
    rw [putSlot_live, wellFormed.live_eq]
    omega

theorem issued_putSlot (found : arena.slots[id.index]? = some ⟨id.generation, old⟩)
    (newOccupied : new ≠ .free) {other : NodeId} (issued : arena.Issued other) :
    (arena.putSlot id.index ⟨id.generation, new⟩).Issued other := by
  obtain ⟨slot, foundOther, order⟩ := issued
  by_cases same : id.index = other.index
  · rw [← same, found] at foundOther
    cases foundOther
    refine ⟨⟨id.generation, new⟩, by rw [← same]; exact putSlot_slots_same found _, ?_⟩
    rcases order with earlier | ⟨equal, _⟩
    · exact .inl earlier
    · exact .inr ⟨equal, newOccupied⟩
  · exact ⟨slot, by rwa [putSlot_slots_other _ same], order⟩

theorem issued_putSlot_iff (found : arena.slots[id.index]? = some ⟨id.generation, old⟩)
    (oldOccupied : old ≠ .free) (newOccupied : new ≠ .free) {other : NodeId} :
    (arena.putSlot id.index ⟨id.generation, new⟩).Issued other ↔ arena.Issued other := by
  constructor
  · intro issued
    -- the old slot is put back
    have back := issued_putSlot (putSlot_slots_same found ⟨id.generation, new⟩) oldOccupied issued
    rwa [putSlot_putSlot, putSlot_self found] at back
  · exact issued_putSlot found newOccupied

theorem dying_putSlot_other (found : arena.slots[id.index]? = some ⟨id.generation, old⟩)
    {other : NodeId} (different : other ≠ id) :
    (arena.putSlot id.index ⟨id.generation, new⟩).Dying other ↔ arena.Dying other := by
  unfold Dying
  by_cases same : id.index = other.index
  · have generations : id.generation ≠ other.generation := fun equal =>
      different (by cases id; cases other; simp_all)
    rw [← same, putSlot_slots_same found, found]
    simp [generations]
  · rw [putSlot_slots_other _ same]

end Put

/-! ## Steps of a teardown -/

section Steps

variable {arena : Arena} {owed : List NodeId} {holds : NodeId → Nat}

theorem countOwners_of_live {id : NodeId} {node : Node} {owners : Nat}
    (found : arena.live? id = some (node, owners)) (change : Nat → Nat) :
    arena.countOwners id change =
      arena.putSlot id.index ⟨id.generation, .live node (change owners)⟩ :=
  updateLive_of_live found _

theorem condemn_of_live {id : NodeId} {node : Node} {owners : Nat}
    (found : arena.live? id = some (node, owners)) :
    arena.condemn id = arena.putSlot id.index ⟨id.generation, .dying node⟩ :=
  updateLive_of_live found _

theorem ownerCount_putSlot_live {id : NodeId} {old : SlotState} {node : Node} {owners : Nat}
    (found : arena.slots[id.index]? = some ⟨id.generation, old⟩) :
    (arena.putSlot id.index ⟨id.generation, .live node owners⟩).ownerCount id = owners := by
  rw [ownerCount, owners?, live?_putSlot_same found]
  simp [Slot.live?]

theorem ownerCount_putSlot_other {id other : NodeId} {old new : SlotState}
    (found : arena.slots[id.index]? = some ⟨id.generation, old⟩) (different : other ≠ id) :
    (arena.putSlot id.index ⟨id.generation, new⟩).ownerCount other = arena.ownerCount other := by
  simp only [ownerCount, owners?, live?_putSlot_other found different]

theorem Balances.countOwners_pred {id : NodeId} {node : Node} {owners : Nat}
    (balances : arena.Balances (id :: owed) holds)
    (found : arena.live? id = some (node, owners)) :
    (arena.countOwners id (· - 1)).Balances owed holds := by
  have slot := live?_eq_some_iff.mp found
  rw [countOwners_of_live found]
  intro other
  have sums := total_putSlot slot ⟨id.generation, .live node (owners - 1)⟩ (Slot.listed other)
  have before := balances other
  simp only [Slot.listed] at sums
  by_cases same : other = id
  · subst same
    rw [ownerCount_of_live found, List.count_cons_self] at before
    rw [ownerCount_putSlot_live slot]
    omega
  · rw [List.count_cons_of_ne (Ne.symm same)] at before
    rw [ownerCount_putSlot_other slot same]
    omega

theorem Balances.condemn {id : NodeId} {node : Node} {owners : Nat} {given : List NodeId}
    (balances : arena.Balances given holds) (found : arena.live? id = some (node, owners))
    (few : owners + owed.count id ≤ given.count id)
    (others : ∀ other, other ≠ id → given.count other = owed.count other) :
    (arena.condemn id).Balances owed holds := by
  have slot := live?_eq_some_iff.mp found
  rw [condemn_of_live found]
  intro other
  have sums := total_putSlot slot ⟨id.generation, .dying node⟩ (Slot.listed other)
  have before := balances other
  simp only [Slot.listed] at sums
  by_cases same : other = id
  · subst same
    rw [ownerCount_of_live found] at before
    rw [ownerCount_of_stale (by rw [live?_putSlot_same slot]; rfl)]
    omega
  · rw [others other same] at before
    rw [ownerCount_putSlot_other slot same]
    omega

theorem Balances.condemn_last {id : NodeId} {node : Node} {owners : Nat}
    (balances : arena.Balances (id :: owed) holds)
    (found : arena.live? id = some (node, owners)) (last : owners ≤ 1) :
    (arena.condemn id).Balances owed holds := by
  refine balances.condemn found ?_ fun other different => List.count_cons_of_ne different.symm
  rw [List.count_cons_self]
  omega

theorem Balances.condemn_unowned {id : NodeId} {node : Node}
    (balances : arena.Balances owed holds) (found : arena.live? id = some (node, 0)) :
    (arena.condemn id).Balances owed holds :=
  balances.condemn found (Nat.zero_add _).le fun _ _ => rfl

theorem wanes_countOwners_pred {id : NodeId} {node : Node} {owners : Nat}
    (found : arena.live? id = some (node, owners)) (several : 1 < owners) :
    arena.Wanes (arena.countOwners id (· - 1)) := by
  have slot := live?_eq_some_iff.mp found
  rw [countOwners_of_live found]
  refine ⟨fun {other otherNode otherOwners} later => ?_, issued_putSlot slot (by simp), rfl⟩
  by_cases same : other = id
  · subst same
    rw [live?_putSlot_same slot] at later
    simp only [Slot.live?, ↓reduceIte, Option.some.injEq, Prod.mk.injEq] at later
    obtain ⟨rfl, rfl⟩ := later
    exact ⟨owners, found, Nat.sub_le _ _, by omega⟩
  · rw [live?_putSlot_other slot same] at later
    exact ⟨otherOwners, later, Nat.le_refl _, fun zero => zero⟩

theorem wanes_condemn {id : NodeId} {node : Node} {owners : Nat}
    (found : arena.live? id = some (node, owners)) : arena.Wanes (arena.condemn id) := by
  have slot := live?_eq_some_iff.mp found
  rw [condemn_of_live found]
  refine ⟨fun {other otherNode otherOwners} later => ?_, issued_putSlot slot (by simp), rfl⟩
  by_cases same : other = id
  · subst same
    rw [live?_putSlot_same slot] at later
    simp [Slot.live?] at later
  · rw [live?_putSlot_other slot same] at later
    exact ⟨otherOwners, later, Nat.le_refl _, fun zero => zero⟩

/-! ## Emptying a slot -/

theorem vacate_eq (arena : Arena) {id : NodeId} {state : SlotState}
    (found : arena.slots[id.index]? = some ⟨id.generation, state⟩) :
    arena.vacate id =
      { arena.putSlot id.index ⟨id.generation + 1, .free⟩ with
        free := id.index :: arena.free
        live := arena.live - 1 } := by
  obtain ⟨slots, free, live, names⟩ := arena
  simp only [vacate, putSlot, modify_eq_setIfInBounds found]

section Vacate

variable {id : NodeId} {node : Node}

theorem vacate_slots_same (found : arena.slots[id.index]? = some ⟨id.generation, .dying node⟩) :
    (arena.vacate id).slots[id.index]? = some ⟨id.generation + 1, .free⟩ := by
  rw [vacate_eq arena found]
  exact putSlot_slots_same found _

theorem vacate_slots_other (found : arena.slots[id.index]? = some ⟨id.generation, .dying node⟩)
    {index : Nat} (different : id.index ≠ index) :
    (arena.vacate id).slots[index]? = arena.slots[index]? := by
  rw [vacate_eq arena found]
  exact putSlot_slots_other arena different _

theorem live?_vacate (found : arena.slots[id.index]? = some ⟨id.generation, .dying node⟩)
    (other : NodeId) : (arena.vacate id).live? other = arena.live? other := by
  by_cases same : id.index = other.index
  · rw [live?, live?, ← same, vacate_slots_same found, found]
    rfl
  · rw [live?, live?, vacate_slots_other found same]

theorem WellFormed.vacate (wellFormed : arena.WellFormed)
    (found : arena.slots[id.index]? = some ⟨id.generation, .dying node⟩) :
    (arena.vacate id).WellFormed where
  free_nodup := by
    rw [vacate_eq arena found]
    refine List.nodup_cons.mpr ⟨fun member => ?_, wellFormed.free_nodup⟩
    obtain ⟨generation, free⟩ := (wellFormed.mem_free _).mp member
    rw [found] at free
    cases free
  mem_free index := by
    by_cases same : id.index = index
    · subst same
      rw [vacate_slots_same found, vacate_eq arena found]
      simp
    · rw [vacate_slots_other found same, vacate_eq arena found, ← wellFormed.mem_free]
      simp [Ne.symm same]
  live_eq := by
    have sums := total_putSlot found ⟨id.generation + 1, .free⟩ Slot.occupied
    have counted := wellFormed.live_eq
    simp only [Slot.occupied] at sums
    rw [vacate_eq arena found]
    change arena.live - 1 = (arena.putSlot id.index ⟨id.generation + 1, .free⟩).total Slot.occupied
    omega

theorem live_vacate (wellFormed : arena.WellFormed)
    (found : arena.slots[id.index]? = some ⟨id.generation, .dying node⟩) :
    (arena.vacate id).live + 1 = arena.live := by
  have weight := weight_le_total found Slot.occupied
  have counted := wellFormed.live_eq
  rw [vacate_eq arena found]
  simp only [Slot.occupied] at weight
  change arena.live - 1 + 1 = arena.live
  omega

theorem Balances.vacate (balances : arena.Balances owed holds)
    (found : arena.slots[id.index]? = some ⟨id.generation, .dying node⟩) :
    (arena.vacate id).Balances (node.childArray.toList ++ owed) holds := by
  intro other
  have sums := total_putSlot found ⟨id.generation + 1, .free⟩ (Slot.listed other)
  have before := balances other
  have same : (arena.vacate id).ownerCount other = arena.ownerCount other := by
    simp only [ownerCount, owners?, live?_vacate found]
  have listed : (arena.vacate id).total (Slot.listed other) =
      (arena.putSlot id.index ⟨id.generation + 1, .free⟩).total (Slot.listed other) := by
    rw [vacate_eq arena found]
    rfl
  simp only [Slot.listed] at sums
  rw [same, listed, List.count_append, Array.count_toList]
  omega

theorem issued_vacate (found : arena.slots[id.index]? = some ⟨id.generation, .dying node⟩)
    {other : NodeId} (issued : arena.Issued other) : (arena.vacate id).Issued other := by
  obtain ⟨slot, foundOther, order⟩ := issued
  by_cases same : id.index = other.index
  · rw [← same, found] at foundOther
    cases foundOther
    refine ⟨_, by rw [← same]; exact vacate_slots_same found, .inl ?_⟩
    rcases order with earlier | ⟨equal, _⟩
    · exact Nat.lt_succ_of_lt earlier
    · exact Nat.lt_succ_of_le (Nat.le_of_eq equal)
  · exact ⟨slot, by rwa [vacate_slots_other found same], order⟩

theorem wanes_vacate (found : arena.slots[id.index]? = some ⟨id.generation, .dying node⟩) :
    arena.Wanes (arena.vacate id) where
  live {_ _ owners} later := by
    rw [live?_vacate found] at later
    exact ⟨owners, later, Nat.le_refl _, fun zero => zero⟩
  issued := issued_vacate found
  names := by
    rw [vacate_eq arena found]
    rfl

theorem dying_vacate (found : arena.slots[id.index]? = some ⟨id.generation, .dying node⟩)
    (other : NodeId) : (arena.vacate id).Dying other ↔ arena.Dying other ∧ other ≠ id := by
  unfold Dying
  by_cases same : id.index = other.index
  · rw [← same, vacate_slots_same found, found]
    constructor
    · rintro ⟨_, equal⟩
      simp at equal
    · rintro ⟨⟨_, equal⟩, different⟩
      simp only [Option.some.injEq, Slot.mk.injEq] at equal
      exact absurd (by cases id; cases other; simp_all) different
  · rw [vacate_slots_other found same]
    have different : other ≠ id := fun equal => same (by rw [equal])
    simp [different]

end Vacate

end Steps

/-! ## Giving up an owner of a child -/

section Children

variable {arena : Arena} {owed : List NodeId} {holds : NodeId → Nat}

/-- A stale or dying child is passed over, one whose last owner is given up is condemned and joins
the work list, and any other one has an owner less. -/
theorem releaseChild_cases (arena : Arena) (work : List NodeId) (child : NodeId) :
    arena.live? child = none ∧ releaseChild (arena, work) child = (arena, work) ∨
      ∃ node owners, arena.live? child = some (node, owners) ∧
        (owners ≤ 1 ∧ releaseChild (arena, work) child = (arena.condemn child, child :: work) ∨
          1 < owners ∧
            releaseChild (arena, work) child = (arena.countOwners child (· - 1), work)) := by
  cases found : arena.live? child with
  | none =>
    left
    have unknown : arena.owners? child = none := by simp [owners?, found]
    exact ⟨rfl, by simp only [releaseChild, unknown]⟩
  | some content =>
    rcases content with ⟨node, owners⟩
    right
    have known : arena.owners? child = some owners := by simp [owners?, found]
    refine ⟨node, owners, rfl, ?_⟩
    by_cases last : owners ≤ 1
    · exact .inl ⟨last, by simp only [releaseChild, known, last, ↓reduceIte]⟩
    · exact .inr ⟨by omega, by simp only [releaseChild, known, last, ↓reduceIte]⟩

theorem wanes_releaseChild (arena : Arena) (work : List NodeId) (child : NodeId) :
    arena.Wanes (releaseChild (arena, work) child).1 := by
  rcases releaseChild_cases arena work child with
    ⟨-, same⟩ | ⟨node, owners, found, ⟨-, same⟩ | ⟨several, same⟩⟩
  · rw [same]
    exact .refl arena
  · rw [same]
    exact wanes_condemn found
  · rw [same]
    exact wanes_countOwners_pred found several

theorem Balances.live_of_owed {child : NodeId} (balances : arena.Balances (child :: owed) holds) :
    ∃ node owners, arena.live? child = some (node, owners) := by
  cases found : arena.live? child with
  | some pair => exact ⟨pair.1, pair.2, rfl⟩
  | none =>
    have count := balances child
    rw [ownerCount_of_stale found, List.count_cons_self] at count
    omega

theorem Balances.releaseChild {child : NodeId} (balances : arena.Balances (child :: owed) holds)
    (work : List NodeId) : (Arena.releaseChild (arena, work) child).1.Balances owed holds := by
  rcases balances.live_of_owed with ⟨_, _, live⟩
  rcases releaseChild_cases arena work child with
    ⟨stale, -⟩ | ⟨node, owners, found, ⟨last, same⟩ | ⟨-, same⟩⟩
  · rw [stale] at live
    cases live
  · rw [same]
    exact balances.condemn_last found last
  · rw [same]
    exact balances.countOwners_pred found

theorem Balances.releaseChildren {children : List NodeId}
    (balances : arena.Balances (children ++ owed) holds) (work : List NodeId) :
    (children.foldl Arena.releaseChild (arena, work)).1.Balances owed holds := by
  induction children generalizing arena work with
  | nil => exact balances
  | cons child children induction => exact induction (balances.releaseChild work) _

end Children

/-! ## Whole teardowns -/

theorem exists_of_dyingChildren {arena : Arena} {id : NodeId} {children : Array NodeId}
    (dying : arena.dyingChildren? id = some children) :
    ∃ node, arena.slots[id.index]? = some ⟨id.generation, .dying node⟩ ∧
      node.childArray = children := by
  unfold dyingChildren? at dying
  split at dying
  · rename_i generation node found
    split at dying
    · rename_i same
      subst same
      exact ⟨node, found, Option.some.inj dying⟩
    · cases dying
  · cases dying

theorem teardown_related {related : Arena → Arena → Prop} (refl : ∀ arena, related arena arena)
    (trans : ∀ {first second third}, related first second → related second third →
      related first third)
    (vacated : ∀ {arena : Arena} {id : NodeId} {node : Node},
      arena.slots[id.index]? = some ⟨id.generation, .dying node⟩ →
        related arena (arena.vacate id))
    (released : ∀ arena work child, related arena (releaseChild (arena, work) child).1)
    (rounds : Nat) (work : List NodeId) (arena : Arena) :
    related arena (teardown rounds work arena) := by
  have releasedAll (children : List NodeId) (arena : Arena) (work : List NodeId) :
      related arena (children.foldl releaseChild (arena, work)).1 := by
    induction children generalizing arena work with
    | nil => exact refl arena
    | cons child children induction => exact trans (released arena work child) (induction _ _)
  induction rounds generalizing work arena with
  | zero => exact refl arena
  | succ rounds induction =>
    cases work with
    | nil => exact refl arena
    | cons id work =>
      unfold teardown
      split
      · exact induction work arena
      · rename_i children dying
        rcases exists_of_dyingChildren dying with ⟨node, found, -⟩
        simp only [← Array.foldl_toList]
        exact trans (trans (vacated found) (releasedAll _ _ work)) (induction _ _)

theorem wanes_teardown (rounds : Nat) (work : List NodeId) (arena : Arena) :
    arena.Wanes (teardown rounds work arena) :=
  teardown_related .refl .trans wanes_vacate wanes_releaseChild rounds work arena

theorem wanes_destroy (arena : Arena) (id : NodeId) : arena.Wanes (arena.destroy id) := by
  cases found : arena.live? id with
  | none =>
    rw [destroy, condemn, updateLive_of_stale found]
    exact wanes_teardown _ _ arena
  | some content => exact (wanes_condemn found).trans (wanes_teardown _ _ _)

theorem live?_destroy (arena : Arena) (id : NodeId) : (arena.destroy id).live? id = none := by
  have condemned : (arena.condemn id).live? id = none := by
    cases found : arena.live? id with
    | none => rwa [condemn, updateLive_of_stale found]
    | some content =>
      rw [condemn_of_live found, live?_putSlot_same (live?_eq_some_iff.mp found)]
      rfl
  cases still : (arena.destroy id).live? id with
  | none => rfl
  | some content =>
    obtain ⟨earlier, found, -⟩ :=
      (wanes_teardown arena.slots.size [id] (arena.condemn id)).live still
    rw [condemned] at found
    cases found

theorem isUnowned_releaseIfUnowned (arena : Arena) (id : NodeId) :
    (arena.releaseIfUnowned id).isUnowned id = false := by
  cases unowned : arena.isUnowned id with
  | false => simp [Arena.releaseIfUnowned, unowned]
  | true =>
    have gone := live?_destroy arena id
    simp only [Arena.releaseIfUnowned, unowned, ↓reduceIte]
    simp [isUnowned, owners?, gone]

theorem wanes_release (arena : Arena) (id : NodeId) : arena.Wanes (arena.release id) := by
  cases found : arena.live? id with
  | none =>
    simp only [release, owners?, found, Option.map_none]
    exact .refl arena
  | some content =>
    simp only [release, owners?, found, Option.map_some]
    split
    · exact wanes_destroy arena id
    · exact wanes_countOwners_pred found (by omega)

theorem wanes_releaseIfUnowned (arena : Arena) (id : NodeId) :
    arena.Wanes (arena.releaseIfUnowned id) := by
  unfold releaseIfUnowned
  split
  · exact wanes_destroy arena id
  · exact .refl arena

/-- The children of a freed node are owed from when its slot is emptied until they are released. -/
theorem Balances.teardown {arena : Arena} {owed : List NodeId} {holds : NodeId → Nat}
    (balances : arena.Balances owed holds) (rounds : Nat) (work : List NodeId) :
    (Arena.teardown rounds work arena).Balances owed holds := by
  induction rounds generalizing arena work with
  | zero => exact balances
  | succ rounds induction =>
    cases work with
    | nil => exact balances
    | cons id work =>
      unfold Arena.teardown
      split
      · exact induction balances work
      · rename_i children dying
        rcases exists_of_dyingChildren dying with ⟨node, found, rfl⟩
        simp only [← Array.foldl_toList]
        exact induction ((balances.vacate found).releaseChildren work) _

structure Tearing (arena : Arena) (work : List NodeId) (owed : List NodeId)
    (holds : NodeId → Nat) : Prop where
  wellFormed : arena.WellFormed
  balances : arena.Balances owed holds
  work_nodup : work.Nodup
  mem_work : ∀ id, id ∈ work ↔ arena.Dying id

end Arena
end RecordGraph
