import Mathlib.Algebra.Order.BigOperators.Group.List
import Mathlib.Algebra.GroupWithZero.Nat
import Mathlib.Algebra.Order.Group.Nat
import RecordGraph.Arena.Links

/-!
# Slots, one at a time

Every change of an arena puts one slot in the place of another, or appends one. What the changes do
to the content of the slots, and to sums over all slots, is said here once.
-/

namespace RecordGraph
namespace Arena

/-! ## The slot of an id -/

theorem live?_eq_some_iff {arena : Arena} {id : NodeId} {node : Node} {owners : Nat} :
    arena.live? id = some (node, owners) ↔
      arena.slots[id.index]? = some ⟨id.generation, .live node owners⟩ := by
  cases found : arena.slots[id.index]? with
  | none => simp [live?, found]
  | some slot =>
    obtain ⟨generation, state⟩ := slot
    cases state with
    | live other count =>
      simp only [live?, found, Option.bind_some, Slot.live?, Option.some.injEq, Slot.mk.injEq,
        SlotState.live.injEq]
      by_cases same : generation = id.generation <;> simp [same]
    | dying other => simp [live?, found, Slot.live?]
    | free => simp [live?, found, Slot.live?]

theorem contains_iff {arena : Arena} {id : NodeId} :
    arena.contains id = true ↔ ∃ node owners, arena.live? id = some (node, owners) := by
  simp [contains, Option.isSome_iff_exists]

theorem live?_of_not_contains {arena : Arena} {id : NodeId} (stale : arena.contains id = false) :
    arena.live? id = none := by
  simpa [contains] using stale

theorem ownerCount_of_live {arena : Arena} {id : NodeId} {node : Node} {owners : Nat}
    (found : arena.live? id = some (node, owners)) : arena.ownerCount id = owners := by
  simp [ownerCount, owners?, found]

theorem ownerCount_of_stale {arena : Arena} {id : NodeId} (stale : arena.live? id = none) :
    arena.ownerCount id = 0 := by
  simp [ownerCount, owners?, stale]

theorem children_of_live {arena : Arena} {id : NodeId} {node : Node} {owners : Nat}
    (found : arena.live? id = some (node, owners)) : arena.children id = node.childArray := by
  simp [children, node?, found]

theorem children_of_stale {arena : Arena} {id : NodeId} (stale : arena.live? id = none) :
    arena.children id = #[] := by
  simp [children, node?, stale]

theorem child?_of_stale {arena : Arena} {id : NodeId} (stale : arena.live? id = none)
    (index : Nat) : arena.child? id index = none := by
  simp [child?, children_of_stale stale]

/-! ## Putting a slot in the place of another one -/

def putSlot (arena : Arena) (index : Nat) (slot : Slot) : Arena :=
  { arena with slots := arena.slots.setIfInBounds index slot }

theorem putSlot_slots_same {arena : Arena} {index : Nat} {old : Slot}
    (found : arena.slots[index]? = some old) (slot : Slot) :
    (arena.putSlot index slot).slots[index]? = some slot := by
  have inside : index < arena.slots.size := (Array.getElem?_eq_some_iff.mp found).1
  simp [putSlot, inside]

theorem putSlot_slots_other (arena : Arena) {index asked : Nat} (different : index ≠ asked)
    (slot : Slot) : (arena.putSlot index slot).slots[asked]? = arena.slots[asked]? := by
  simp [putSlot, different]

theorem putSlot_self {arena : Arena} {index : Nat} {slot : Slot}
    (found : arena.slots[index]? = some slot) : arena.putSlot index slot = arena := by
  obtain ⟨slots, free, live, names⟩ := arena
  have same : slots.setIfInBounds index slot = slots := by
    apply Array.ext_getElem?
    intro asked
    rw [Array.getElem?_setIfInBounds]
    split
    · rename_i here
      subst here
      have inside : index < slots.size := (Array.getElem?_eq_some_iff.mp found).1
      rw [if_pos inside]
      exact found.symm
    · rfl
  simp only [putSlot, same]

theorem putSlot_putSlot (arena : Arena) (index : Nat) (first second : Slot) :
    (arena.putSlot index first).putSlot index second = arena.putSlot index second := by
  simp only [putSlot, Array.setIfInBounds_setIfInBounds]

@[simp] theorem putSlot_size (arena : Arena) (index : Nat) (slot : Slot) :
    (arena.putSlot index slot).slots.size = arena.slots.size := by
  simp [putSlot]

@[simp] theorem putSlot_free (arena : Arena) (index : Nat) (slot : Slot) :
    (arena.putSlot index slot).free = arena.free := rfl

@[simp] theorem putSlot_live (arena : Arena) (index : Nat) (slot : Slot) :
    (arena.putSlot index slot).live = arena.live := rfl

theorem modify_eq_setIfInBounds {slots : Array Slot} {index : Nat} {old : Slot}
    (found : slots[index]? = some old) (change : Slot → Slot) :
    slots.modify index change = slots.setIfInBounds index (change old) := by
  apply Array.ext_getElem?
  intro asked
  rw [Array.getElem?_modify, Array.getElem?_setIfInBounds]
  by_cases same : index = asked
  · subst same
    have inside : index < slots.size := (Array.getElem?_eq_some_iff.mp found).1
    rw [if_pos rfl, if_pos rfl, if_pos inside, found, Option.map_some]
  · rw [if_neg same, if_neg same]

theorem updateLive_of_live {arena : Arena} {id : NodeId} {node : Node} {owners : Nat}
    (found : arena.live? id = some (node, owners)) (change : Node → Nat → SlotState) :
    arena.updateLive id change = arena.putSlot id.index ⟨id.generation, change node owners⟩ := by
  have slot := live?_eq_some_iff.mp found
  obtain ⟨slots, free, live, names⟩ := arena
  simp only [updateLive, putSlot, modify_eq_setIfInBounds slot, Slot.updateLive, ↓reduceIte]

theorem updateLive_of_stale {arena : Arena} {id : NodeId} (stale : arena.live? id = none)
    (change : Node → Nat → SlotState) : arena.updateLive id change = arena := by
  obtain ⟨slots, free, live, names⟩ := arena
  have unchanged : slots.modify id.index (Slot.updateLive id.generation change) = slots := by
    apply Array.ext_getElem?
    intro asked
    rw [Array.getElem?_modify]
    split
    · rename_i same
      subst same
      cases found : slots[id.index]? with
      | none => rfl
      | some slot =>
        obtain ⟨generation, state⟩ := slot
        cases state with
        | live node owners =>
          have different : generation ≠ id.generation := by
            intro same
            subst same
            have live : (Arena.mk slots free live names).live? id = some (node, owners) :=
              live?_eq_some_iff.mpr found
            rw [stale] at live
            cases live
          simp [Slot.updateLive, different]
        | dying node => rfl
        | free => rfl
    · rfl
  simp only [updateLive, unchanged]

/-! ## Sums over all slots -/

def total (arena : Arena) (weight : Slot → Nat) : Nat :=
  (arena.slots.toList.map weight).sum

private theorem sum_map_set {slots : List Slot} {index : Nat} {old : Slot}
    (found : slots[index]? = some old) (new : Slot) (weight : Slot → Nat) :
    ((slots.set index new).map weight).sum + weight old =
      (slots.map weight).sum + weight new := by
  induction slots generalizing index with
  | nil => simp at found
  | cons slot slots induction =>
    cases index with
    | zero =>
      simp only [List.getElem?_cons_zero, Option.some.injEq] at found
      subst found
      simp only [List.set_cons_zero, List.map_cons, List.sum_cons]
      omega
    | succ index =>
      have rest := @induction index (by simpa using found)
      simp only [List.set_cons_succ, List.map_cons, List.sum_cons]
      omega

/-- One slot in the place of another changes a sum by the difference of the two weights. -/
theorem total_putSlot {arena : Arena} {index : Nat} {old : Slot}
    (found : arena.slots[index]? = some old) (new : Slot) (weight : Slot → Nat) :
    (arena.putSlot index new).total weight + weight old = arena.total weight + weight new := by
  have inList : arena.slots.toList[index]? = some old := by simpa using found
  simpa [total, putSlot] using sum_map_set inList new weight

theorem weight_le_total {arena : Arena} {index : Nat} {slot : Slot}
    (found : arena.slots[index]? = some slot) (weight : Slot → Nat) :
    weight slot ≤ arena.total weight := by
  have member : slot ∈ arena.slots.toList :=
    List.mem_of_getElem? (by simpa using found : arena.slots.toList[index]? = some slot)
  exact List.le_sum_of_mem (List.mem_map_of_mem member)

private theorem sum_map_le {slots others : List Slot} {weight other : Slot → Nat}
    (le : ∀ (index : Nat) (slot : Slot), slots[index]? = some slot → 0 < weight slot →
      ∃ counterpart, others[index]? = some counterpart ∧ weight slot ≤ other counterpart) :
    (slots.map weight).sum ≤ (others.map other).sum := by
  induction slots generalizing others with
  | nil => exact Nat.zero_le _
  | cons slot slots induction =>
    cases others with
    | nil =>
      have rest : (slots.map weight).sum ≤ (([] : List Slot).map other).sum :=
        induction fun index slot found => le (index + 1) slot found
      have weightless : weight slot = 0 := by
        by_contra weighs
        rcases le 0 slot rfl (Nat.pos_of_ne_zero weighs) with ⟨_, found, -⟩
        cases found
      rwa [List.map_cons, List.sum_cons, weightless, Nat.zero_add]
    | cons counterpart others =>
      have rest : (slots.map weight).sum ≤ (others.map other).sum :=
        induction fun index slot found => le (index + 1) slot found
      have first : weight slot ≤ other counterpart := by
        by_cases weighs : 0 < weight slot
        · rcases le 0 slot rfl weighs with ⟨_, ⟨⟩, lighter⟩
          exact lighter
        · omega
      simp only [List.map_cons, List.sum_cons]
      omega

/-- A slot of some weight has a counterpart of at least that weight in the other arena. -/
theorem total_le_total {arena later : Arena} {weight other : Slot → Nat}
    (le : ∀ (index : Nat) (slot : Slot), arena.slots[index]? = some slot → 0 < weight slot →
      ∃ counterpart, later.slots[index]? = some counterpart ∧ weight slot ≤ other counterpart) :
    arena.total weight ≤ later.total other :=
  sum_map_le fun index slot found weighs => by
    simpa using le index slot (by simpa using found) weighs

theorem exists_of_total_pos {arena : Arena} {weight : Slot → Nat}
    (positive : 0 < arena.total weight) :
    ∃ (index : Nat) (slot : Slot), arena.slots[index]? = some slot ∧ 0 < weight slot := by
  obtain ⟨value, member, positive⟩ := List.sum_pos_iff_exists_pos_nat.mp positive
  obtain ⟨slot, inside, rfl⟩ := List.mem_map.mp member
  obtain ⟨index, found⟩ := List.mem_iff_getElem?.mp inside
  exact ⟨index, slot, by simpa using found, positive⟩

end Arena
end RecordGraph
