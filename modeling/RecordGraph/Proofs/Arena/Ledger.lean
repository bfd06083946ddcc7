import RecordGraph.Proofs.Arena.Edits

/-!
# Runs of an arena with holds from outside

A caller works on an arena and keeps a ledger of the holds that it has on nodes: a retain adds one,
a release takes one back. As long as no hold is taken back that was not there, the count of each
live node is the number of its places in the child lists of live nodes plus the holds on it,
whatever the shape of the graph.
-/

namespace RecordGraph

/-- How often an id stands in the child list of a live node of the slot. -/
def Slot.occurrences (id : NodeId) (slot : Slot) : Nat :=
  match slot.state with
  | .live node _ => node.childArray.count id
  | _ => 0

namespace Arena

def occurrences (arena : Arena) (id : NodeId) : Nat :=
  arena.total (Slot.occurrences id)

section Steady

variable {arena : Arena} {owed : List NodeId} {holds : NodeId → Nat}

theorem total_listed (alive : ∀ id, ¬ arena.Dying id) (id : NodeId) :
    arena.total (Slot.listed id) = arena.occurrences id := by
  unfold occurrences total
  congr 1
  apply List.map_congr_left
  intro slot member
  obtain ⟨index, found⟩ := List.mem_iff_getElem?.mp member
  obtain ⟨generation, state⟩ := slot
  cases state with
  | live node owners => rfl
  | free => rfl
  | dying node =>
    exact absurd ⟨node, by simpa using found⟩ (alive ⟨index, generation⟩)

/-- Where each live node stands in a later arena with its child list, every place in a list that
there was is still one, perhaps among others. -/
theorem occurrences_le_listed {later : Arena}
    (kept : ∀ {id node owners}, arena.live? id = some (node, owners) →
      ∃ count, later.live? id = some (node, count)) (id : NodeId) :
    arena.occurrences id ≤ later.total (Slot.listed id) := by
  apply total_le_total
  intro index slot found positive
  rcases slot with ⟨generation, state⟩
  cases state with
  | live node owners =>
    have live : arena.live? ⟨index, generation⟩ = some (node, owners) :=
      live?_eq_some_iff.mpr found
    rcases kept live with ⟨count, standing⟩
    exact ⟨_, live?_eq_some_iff.mp standing, Nat.le_refl _⟩
  | dying node => exact absurd positive (Nat.lt_irrefl 0)
  | free => exact absurd positive (Nat.lt_irrefl 0)

theorem Tearing.ownerCount_eq (steady : arena.Steady owed holds) (id : NodeId) :
    arena.ownerCount id = arena.occurrences id + owed.count id + holds id := by
  rw [← total_listed steady.not_dying]
  exact steady.balances id

theorem occurrences_pos {parent child : NodeId} (member : child ∈ arena.children parent) :
    0 < arena.occurrences child := by
  cases found : arena.live? parent with
  | none => simp [children_of_stale found] at member
  | some content =>
    obtain ⟨node, owners⟩ := content
    rw [children_of_live found] at member
    have weight := weight_le_total (live?_eq_some_iff.mp found) (Slot.occurrences child)
    exact Nat.lt_of_lt_of_le (Array.count_pos_iff.mpr member) weight

theorem exists_parent {id : NodeId} (listed : 0 < arena.occurrences id) :
    ∃ parent, id ∈ arena.children parent := by
  rcases exists_of_total_pos listed with ⟨index, ⟨generation, state⟩, found, positive⟩
  cases state with
  | live node owners =>
    have live : arena.live? ⟨index, generation⟩ = some (node, owners) :=
      live?_eq_some_iff.mpr found
    refine ⟨⟨index, generation⟩, ?_⟩
    rw [children_of_live live]
    exact Array.count_pos_iff.mp positive
  | dying node => exact absurd positive (Nat.lt_irrefl 0)
  | free => exact absurd positive (Nat.lt_irrefl 0)

theorem contains_of_ownerCount_pos {id : NodeId} (owned : 0 < arena.ownerCount id) :
    arena.contains id = true := by
  cases found : arena.live? id with
  | none =>
    rw [ownerCount_of_stale found] at owned
    cases owned
  | some content => exact contains_iff.mpr ⟨content.1, content.2, found⟩

theorem Tearing.child_live (steady : arena.Steady owed holds) {parent child : NodeId}
    (member : child ∈ arena.children parent) : arena.contains child = true := by
  have positive := occurrences_pos member
  have count := steady.ownerCount_eq child
  exact contains_of_ownerCount_pos (by omega)

theorem Tearing.holds_eq_zero (steady : arena.Steady [] holds) {id : NodeId}
    (new : ¬ arena.Issued id) : holds id = 0 := by
  have count := steady.ownerCount_eq id
  rw [ownerCount_of_stale (live?_of_not_issued new)] at count
  omega

theorem Tearing.giveUp (steady : arena.Steady [] holds) {id : NodeId} (held : 0 < holds id) :
    arena.Steady [id] (Function.update holds id (holds id - 1)) := by
  apply steady.hold
  intro other
  by_cases same : other = id
  · subst same
    simp only [List.count_nil, List.count_cons_self, Function.update_self]
    omega
  · simp [same, Ne.symm same]

end Steady

theorem steady_empty : Arena.empty.Steady [] fun _ => 0 where
  wellFormed := ⟨List.nodup_nil, fun index => by simp [empty], rfl⟩
  balances _ := rfl
  work_nodup := List.nodup_nil
  mem_work id := by simp [Dying, empty]

end Arena

inductive Operation where
  | alloc (node : Node)
  | retain (id : NodeId)
  | release (id : NodeId)
  | releaseIfUnowned (id : NodeId)
  | ensureChildren (id : NodeId)
  | pushChild (parent child : NodeId)
  | insertChild (parent : NodeId) (index : Nat) (child : NodeId)
  | setChild (parent : NodeId) (index : Nat) (child : NodeId)
  | removeChild (parent : NodeId) (index : Nat)
  | clearChildren (parent : NodeId)

structure Ledger where
  arena : Arena
  holds : NodeId → Nat

namespace Ledger

def initial : Ledger := ⟨.empty, fun _ => 0⟩

/-- The state after an operation. Only a retain of a live node takes a hold. -/
def apply (ledger : Ledger) : Operation → Ledger
  | .alloc node => { ledger with arena := (ledger.arena.alloc node).2 }
  | .retain id =>
    ⟨ledger.arena.retain id,
      if ledger.arena.contains id then Function.update ledger.holds id (ledger.holds id + 1)
      else ledger.holds⟩
  | .release id =>
    ⟨ledger.arena.release id, Function.update ledger.holds id (ledger.holds id - 1)⟩
  | .releaseIfUnowned id => { ledger with arena := ledger.arena.releaseIfUnowned id }
  | .ensureChildren id => { ledger with arena := ledger.arena.ensureChildren id }
  | .pushChild parent child => { ledger with arena := (ledger.arena.pushChild parent child).2 }
  | .insertChild parent index child =>
    { ledger with arena := (ledger.arena.insertChild parent index child).2 }
  | .setChild parent index child =>
    { ledger with arena := (ledger.arena.setChild parent index child).2 }
  | .removeChild parent index =>
    { ledger with arena := (ledger.arena.removeChild parent index).2 }
  | .clearChildren parent => { ledger with arena := ledger.arena.clearChildren parent }

def Permits (ledger : Ledger) : Operation → Prop
  | .release id => 0 < ledger.holds id ∨ ledger.arena.ownerCount id = 0
  | _ => True

instance (ledger : Ledger) (operation : Operation) : Decidable (ledger.Permits operation) := by
  unfold Permits
  cases operation <;> infer_instance

def run (ledger : Ledger) (operations : List Operation) : Ledger :=
  operations.foldl apply ledger

def PermitsAll : Ledger → List Operation → Prop
  | _, [] => True
  | ledger, operation :: operations =>
    ledger.Permits operation ∧ (ledger.apply operation).PermitsAll operations

instance : (ledger : Ledger) → (operations : List Operation) →
    Decidable (ledger.PermitsAll operations)
  | _, [] => inferInstanceAs (Decidable True)
  | ledger, operation :: operations =>
    have := instDecidablePermitsAll (ledger.apply operation) operations
    inferInstanceAs (Decidable (ledger.Permits operation ∧ _))

/-- Each live node has as many owners as places in child lists and holds, and child lists hold live
nodes only. -/
structure Balanced (ledger : Ledger) : Prop where
  owners : ∀ id, ledger.arena.contains id = true →
    ledger.arena.ownerCount id = ledger.arena.occurrences id + ledger.holds id
  children : ∀ parent child, child ∈ ledger.arena.children parent →
    ledger.arena.contains child = true

theorem steady_apply {ledger : Ledger} (steady : ledger.arena.Steady [] ledger.holds)
    {operation : Operation} (permitted : ledger.Permits operation) :
    (ledger.apply operation).arena.Steady [] (ledger.apply operation).holds := by
  cases operation with
  | alloc node => exact steady.alloc node
  | retain id =>
    simp only [apply]
    cases live : ledger.arena.contains id with
    | false =>
      rw [Arena.retain_of_stale (Arena.live?_of_not_contains live)]
      exact steady
    | true =>
      apply (steady.retain live).hold
      intro other
      by_cases same : other = id
      · subst same
        simp [Nat.add_comm]
      · simp [same, Ne.symm same]
  | release id =>
    simp only [apply]
    by_cases held : 0 < ledger.holds id
    · exact (steady.giveUp held).release.1
    · have unchanged : Function.update ledger.holds id (ledger.holds id - 1) = ledger.holds := by
        rw [Function.update_eq_self_iff]
        omega
      rw [unchanged]
      exact (steady.release_unowned (permitted.resolve_left held)).1
  | releaseIfUnowned id => exact (steady.releaseIfUnowned id).1
  | ensureChildren id => exact steady.ensureChildren id
  | pushChild parent child => exact steady.pushChild parent child
  | insertChild parent index child => exact steady.insertChild parent index child
  | setChild parent index child => exact steady.setChild parent index child
  | removeChild parent index => exact steady.removeChild parent index
  | clearChildren parent => exact steady.clearChildren parent

theorem steady_run {ledger : Ledger} (steady : ledger.arena.Steady [] ledger.holds)
    {operations : List Operation} (permitted : ledger.PermitsAll operations) :
    (ledger.run operations).arena.Steady [] (ledger.run operations).holds := by
  induction operations generalizing ledger with
  | nil => exact steady
  | cons operation operations induction =>
    exact induction (steady_apply steady permitted.1) permitted.2

theorem balanced_of_steady {ledger : Ledger} (steady : ledger.arena.Steady [] ledger.holds) :
    ledger.Balanced where
  owners id _ := by simpa using steady.ownerCount_eq id
  children _ _ member := steady.child_live member

theorem permitsAll_of_start {ledger : Ledger} {earlier operations : List Operation}
    (start : earlier <+: operations) (permitted : ledger.PermitsAll operations) :
    ledger.PermitsAll earlier := by
  induction earlier generalizing ledger operations with
  | nil => trivial
  | cons operation earlier induction =>
    cases operations with
    | nil => simp at start
    | cons first operations =>
      obtain ⟨rfl, rest⟩ := List.cons_prefix_cons.mp start
      exact ⟨permitted.1, induction rest permitted.2⟩

/-- After every step of a permitted run the arena is balanced. -/
theorem balanced_run {operations : List Operation} (permitted : initial.PermitsAll operations)
    {earlier : List Operation} (start : earlier <+: operations) :
    (initial.run earlier).Balanced :=
  balanced_of_steady (steady_run Arena.steady_empty (permitsAll_of_start start permitted))

/-- Two nodes that hold each other, the first of which tears itself down by removing its child,
beside a node that holds itself and twice another one. -/
def entangled : List Operation :=
  [.alloc (.ofKind "a" .list), .alloc (.ofKind "b" .list), .alloc (.ofKind "c" .list),
    .alloc (.ofKind "d" .list), .pushChild ⟨0, 0⟩ ⟨1, 0⟩, .pushChild ⟨1, 0⟩ ⟨0, 0⟩,
    .retain ⟨2, 0⟩, .pushChild ⟨2, 0⟩ ⟨2, 0⟩, .pushChild ⟨2, 0⟩ ⟨3, 0⟩,
    .insertChild ⟨2, 0⟩ 0 ⟨3, 0⟩, .removeChild ⟨0, 0⟩ 0, .release ⟨0, 0⟩]

/-- The run of the entangled nodes frees the first two and balances the others. -/
theorem balanced_entangled :
    initial.PermitsAll entangled ∧ entangled <+: entangled ∧
      (initial.run entangled).arena.live = 2 ∧ (initial.run entangled).Balanced :=
  ⟨by decide +kernel, List.prefix_refl _, by decide +kernel,
    balanced_run (by decide +kernel) (List.prefix_refl _)⟩

end Ledger
end RecordGraph
