import RecordGraph.Proofs.Arena.Claims

/-!
# Owners that come and go

Owners that are added to nodes and taken back again leave no trace, as long as no node is without
owners in between. So what was taken can be kept apart from the arena: an arena with more owners is
the arena and how many owners each node has got.
-/

namespace RecordGraph

def Slot.withOwners (more : Nat) : Slot → Slot
  | ⟨generation, .live node owners⟩ => ⟨generation, .live node (owners + more)⟩
  | slot => slot

namespace Arena

def withOwners (arena : Arena) (more : NodeId → Nat) : Arena :=
  { arena with
    slots := arena.slots.mapIdx fun index slot => slot.withOwners (more ⟨index, slot.generation⟩) }

variable {arena : Arena} {more others : NodeId → Nat} {id : NodeId}

theorem withOwners_slots (arena : Arena) (more : NodeId → Nat) (index : Nat) :
    (arena.withOwners more).slots[index]? =
      arena.slots[index]?.map fun slot => slot.withOwners (more ⟨index, slot.generation⟩) := by
  rw [withOwners, Array.getElem?_mapIdx]

theorem withOwners_none (arena : Arena) : arena.withOwners (fun _ => 0) = arena := by
  have same : arena.slots.mapIdx (fun _ slot => slot.withOwners 0) = arena.slots := by
    apply Array.ext_getElem?
    intro index
    rw [Array.getElem?_mapIdx]
    cases arena.slots[index]? with
    | none => rfl
    | some slot =>
      rcases slot with ⟨generation, _ | _ | _⟩ <;> rfl
  rw [withOwners, same]

theorem live?_withOwners (arena : Arena) (more : NodeId → Nat) (id : NodeId) :
    (arena.withOwners more).live? id =
      (arena.live? id).map fun content => (content.1, content.2 + more id) := by
  rw [live?, live?, withOwners_slots]
  cases arena.slots[id.index]? with
  | none => rfl
  | some slot =>
    rcases slot with ⟨generation, ⟨node, owners⟩ | _ | _⟩
    · by_cases same : generation = id.generation
      · subst same
        simp [Slot.withOwners, Slot.live?]
      · simp [Slot.withOwners, Slot.live?, same]
    · rfl
    · rfl

@[simp] theorem contains_withOwners (arena : Arena) (more : NodeId → Nat) (id : NodeId) :
    (arena.withOwners more).contains id = arena.contains id := by
  rw [contains, live?_withOwners, Option.isSome_map, contains]

theorem countOwners_withOwners {change : Nat → Nat}
    (elsewhere : ∀ other, other ≠ id → others other = more other)
    (counted : ∀ node owners, arena.live? id = some (node, owners) →
      change (owners + more id) = owners + others id) :
    (arena.withOwners more).countOwners id change = arena.withOwners others := by
  have slots : ((arena.withOwners more).countOwners id change).slots =
      (arena.withOwners others).slots := by
    apply Array.ext_getElem?
    intro index
    simp only [countOwners, updateLive]
    rw [Array.getElem?_modify, withOwners_slots, withOwners_slots]
    cases found : arena.slots[index]? with
    | none => simp
    | some slot =>
      simp only [Option.map_some]
      by_cases here : (⟨index, slot.generation⟩ : NodeId) = id
      · subst here
        rcases slot with ⟨generation, ⟨node, owners⟩ | _ | _⟩
        · simp [Slot.updateLive, Slot.withOwners, counted node owners (live?_eq_some_iff.mpr found)]
        · simp [Slot.updateLive, Slot.withOwners]
        · simp [Slot.updateLive, Slot.withOwners]
      · rw [elsewhere _ here]
        split
        · rename_i same
          rcases slot with ⟨generation, ⟨node, owners⟩ | _ | _⟩
          · have older : generation ≠ id.generation := by
              rintro rfl
              exact here (by rw [← same])
            simp [Slot.updateLive, Slot.withOwners, older]
          · rfl
          · rfl
        · rfl
  rcases arena with ⟨before, free, live, names⟩
  exact congrArg (fun slots => Arena.mk slots free live names) slots

theorem retain_withOwners (arena : Arena) (more : NodeId → Nat) (id : NodeId) :
    (arena.withOwners more).retain id =
      arena.withOwners fun other => more other + [id].count other :=
  countOwners_withOwners (fun _ other => by simp [List.count_cons_of_ne (Ne.symm other)])
    fun _ _ _ => by simp [Nat.add_assoc]

theorem release_withOwners (owned : arena.isUnowned id = false)
    (given : ∀ other, more other = others other + [id].count other) :
    (arena.withOwners more).release id = arena.withOwners others := by
  have elsewhere (other : NodeId) (different : other ≠ id) : others other = more other := by
    rw [given, List.count_cons_of_ne different.symm, List.count_nil, Nat.add_zero]
  have here : more id = others id + 1 := by
    rw [given, List.count_cons_self, List.count_nil]
  have counted : (arena.withOwners more).countOwners id (· - 1) = arena.withOwners others :=
    countOwners_withOwners elsewhere fun _ _ _ => by omega
  rw [← counted]
  unfold release
  split
  · rename_i stale
    exact (updateLive_of_stale (Option.map_eq_none_iff.mp stale) _).symm
  · rename_i owners found
    rw [owners?, live?_withOwners] at found
    rw [if_neg]
    cases live : arena.live? id with
    | none => simp [live] at found
    | some content =>
      have owner : content.2 ≠ 0 := fun zero => by
        simp [isUnowned, owners?, live, zero] at owned
      simp only [live, Option.map_some, Option.some.injEq] at found
      omega

theorem releaseAll_withOwners {nodes : List NodeId}
    (owned : ∀ node ∈ nodes, arena.isUnowned node = false) :
    nodes.foldl release (arena.withOwners (nodes.count ·)) = arena := by
  induction nodes with
  | nil => exact arena.withOwners_none
  | cons node nodes induction =>
    have given (other : NodeId) :
        (node :: nodes).count other = nodes.count other + [node].count other := by
      rw [List.count_cons, List.count_singleton]
    rcases List.forall_mem_cons.mp owned with ⟨first, others⟩
    rw [List.foldl_cons, release_withOwners first given]
    exact induction others

/-- Nodes of a list that are retained one by one have got an owner for each of their places. -/
theorem retainAll_withOwners (arena : Arena) (more : NodeId → Nat) (nodes : List NodeId) :
    nodes.foldl retain (arena.withOwners more) =
      arena.withOwners fun id => more id + nodes.count id := by
  induction nodes generalizing more with
  | nil => rfl
  | cons node nodes induction =>
    rw [List.foldl_cons, retain_withOwners, induction]
    congr 1
    funext id
    simp only [List.count_cons, List.count_nil]
    omega

/-- What was retained and is released again leaves no trace where nobody was the last owner. -/
theorem releaseAll_retainAll {nodes : List NodeId}
    (owned : ∀ node ∈ nodes, arena.isUnowned node = false) :
    nodes.foldl release (nodes.foldl retain arena) = arena := by
  have retained := retainAll_withOwners arena (fun _ => 0) nodes
  simp only [withOwners_none, Nat.zero_add] at retained
  rw [retained, releaseAll_withOwners owned]

end Arena
end RecordGraph
