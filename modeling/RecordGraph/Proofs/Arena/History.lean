import RecordGraph.Proofs.Arena.Claims

/-!
# Histories of an arena

A caller does what it likes with an arena: it names live nodes and stale ids, and takes and gives up
owners in any number. No slot is lost or used twice by that, and an id whose node is gone stays
stale.
-/

namespace RecordGraph

namespace Slot

def node? (slot : Slot) : Option Node :=
  match slot.state with
  | .live node _ | .dying node => some node
  | .free => none

def isLive (slot : Slot) : Bool :=
  match slot.state with
  | .live _ _ => true
  | _ => false

end Slot

namespace Arena

/-- No slot is dying, the slots that hold a node are those of live ids, the free list holds every
free slot once, and the live slots are counted. -/
structure Consistent (arena : Arena) : Prop where
  not_dying : ∀ id, ¬ arena.Dying id
  node_iff : ∀ index slot, arena.slots[index]? = some slot →
    (slot.node?.isSome = true ↔ arena.contains ⟨index, slot.generation⟩ = true)
  free_nodup : arena.free.Nodup
  mem_free : ∀ index, index ∈ arena.free ↔
    ∃ generation, arena.slots[index]? = some ⟨generation, .free⟩
  live_eq : arena.live = arena.slots.countP Slot.isLive

section Consistent

variable {arena : Arena}

private theorem sum_occupied {slots : List Slot}
    (alive : ∀ slot ∈ slots, slot.occupied = if slot.isLive then 1 else 0) :
    (slots.map Slot.occupied).sum = slots.countP Slot.isLive := by
  induction slots with
  | nil => rfl
  | cons slot slots induction =>
    have first := alive slot (List.mem_cons_self ..)
    have rest := induction fun other member => alive other (List.mem_cons_of_mem _ member)
    rw [List.map_cons, List.sum_cons, List.countP_cons, first, rest, Nat.add_comm]

theorem Clearing.consistent (orderly : arena.Orderly) : arena.Consistent where
  not_dying := orderly.not_dying
  node_iff index slot found := by
    rcases slot with ⟨generation, ⟨node, owners⟩ | node | _⟩
    · simp [Slot.node?, contains, live?, found, Slot.live?]
    · exact absurd ⟨node, found⟩ (orderly.not_dying ⟨index, generation⟩)
    · simp [Slot.node?, contains, live?, found, Slot.live?]
  free_nodup := orderly.wellFormed.free_nodup
  mem_free := orderly.wellFormed.mem_free
  live_eq := by
    rw [orderly.wellFormed.live_eq, total, ← Array.countP_toList]
    apply sum_occupied
    intro slot member
    rcases List.mem_iff_getElem?.mp member with ⟨index, found⟩
    rcases slot with ⟨generation, ⟨node, owners⟩ | node | _⟩
    · rfl
    · exact absurd ⟨node, by simpa using found⟩ (orderly.not_dying ⟨index, generation⟩)
    · rfl

end Consistent

/-! ## Changes that make no node -/

structure Tidies (before after : Arena) : Prop where
  orderly : before.Orderly → after.Orderly
  contains : ∀ {id}, after.contains id = true → before.contains id = true
  issued : ∀ {id}, before.Issued id → after.Issued id

namespace Tidies

variable {first second third : Arena}

theorem refl (arena : Arena) : arena.Tidies arena :=
  ⟨id, id, id⟩

theorem trans (left : first.Tidies second) (right : second.Tidies third) : first.Tidies third :=
  ⟨right.orderly ∘ left.orderly, left.contains ∘ right.contains, right.issued ∘ left.issued⟩

theorem foldl {step : Arena → NodeId → Arena}
    (each : ∀ (arena : Arena) id, arena.Tidies (step arena id)) (nodes : List NodeId)
    (arena : Arena) : arena.Tidies (nodes.foldl step arena) := by
  induction nodes generalizing arena with
  | nil => exact refl arena
  | cons node nodes induction => exact (each arena node).trans (induction _)

theorem modifyNode (arena : Arena) (id : NodeId) (change : Node → Node) :
    arena.Tidies (arena.modifyNode id change) where
  orderly orderly := orderly.modifyNode id change
  contains live := by rwa [contains_modifyNode] at live
  issued := issued_updateLive id (by simp)

theorem retain (arena : Arena) (id : NodeId) : arena.Tidies (arena.retain id) where
  orderly orderly := orderly.retain id
  contains live := by rwa [contains_retain] at live
  issued := issued_updateLive id (by simp)

theorem release (arena : Arena) (id : NodeId) : arena.Tidies (arena.release id) where
  orderly orderly := orderly.release id
  contains := (wanes_release arena id).contains
  issued := (wanes_release arena id).issued

theorem releaseIfUnowned (arena : Arena) (id : NodeId) :
    arena.Tidies (arena.releaseIfUnowned id) where
  orderly orderly := orderly.releaseIfUnowned id
  contains := (wanes_releaseIfUnowned arena id).contains
  issued := (wanes_releaseIfUnowned arena id).issued

theorem names (arena : Arena) (names : NameTable) : arena.Tidies { arena with names } :=
  ⟨fun orderly => orderly.names names, id, id⟩

theorem link (arena : Arena) (parent child : NodeId) (change : Node → Node) :
    arena.Tidies ((arena.retain child).modifyNode parent change) :=
  (retain arena child).trans (modifyNode _ parent change)

theorem pushChild (arena : Arena) (parent child : NodeId) :
    arena.Tidies (arena.pushChild parent child).2 := by
  unfold Arena.pushChild
  split
  · exact link arena parent child _
  · exact refl arena

theorem insertChild (arena : Arena) (parent : NodeId) (index : Nat) (child : NodeId) :
    arena.Tidies (arena.insertChild parent index child).2 := by
  unfold Arena.insertChild
  split
  · exact link arena parent child _
  · exact refl arena

theorem setChild (arena : Arena) (parent : NodeId) (index : Nat) (child : NodeId) :
    arena.Tidies (arena.setChild parent index child).2 := by
  rcases setChild_cases arena parent index child with same | ⟨-, same⟩ | ⟨old, -, -, same⟩
  · rw [same]
    exact refl arena
  · rw [same]
    exact pushChild arena parent child
  · rw [same]
    exact (link arena parent child _).trans (release _ old)

theorem removeChild (arena : Arena) (parent : NodeId) (index : Nat) :
    arena.Tidies (arena.removeChild parent index).2 := by
  unfold Arena.removeChild
  split
  · exact refl arena
  · exact (modifyNode arena parent _).trans (release _ _)

theorem clearChildren (arena : Arena) (parent : NodeId) :
    arena.Tidies (arena.clearChildren parent) := by
  rw [Arena.clearChildren, ← Array.foldl_toList]
  exact (modifyNode arena parent _).trans (foldl release _ _)

theorem adopt (arena : Arena) (node : Node) : arena.Tidies (arena.adopt node).2 := by
  rw [adopt_eq_retainAll]
  exact foldl retain _ arena

theorem setAttr (arena : Arena) (id : NodeId) (name : String) (value : Value) :
    arena.Tidies (arena.setAttr id name value) := by
  unfold Arena.setAttr
  split
  · split
    · exact (names arena _).trans (modifyNode _ id _)
    · exact refl arena
  · exact refl arena

end Tidies

theorem contains_of_alloc {arena : Arena} (orderly : arena.Orderly) {node : Node} {id : NodeId}
    (old : id ≠ (arena.alloc node).1) (live : (arena.alloc node).2.contains id = true) :
    arena.contains id = true := by
  have adopted := Tidies.adopt arena node
  have placed := placed_place (adopted.orderly orderly).wellFormed (arena.adopt node).1
  apply adopted.contains
  rw [contains, ← placed.live?_other old]
  exact live

def perform (arena : Arena) (operation : Operation) : Arena :=
  (Ledger.apply ⟨arena, fun _ => 0⟩ operation).arena

end Arena

def Operation.ids : Operation → List NodeId
  | .alloc _ => []
  | .retain id | .release id | .releaseIfUnowned id | .ensureChildren id => [id]
  | .pushChild parent child | .insertChild parent _ child | .setChild parent _ child =>
    [parent, child]
  | .removeChild parent _ | .clearChildren parent => [parent]

/-- What a caller does with an arena: an operation on its nodes, or a change of an attribute, of a
whole node or of the attribute names. -/
inductive Action where
  | perform (operation : Operation)
  | setAttr (id : NodeId) (name : String) (value : Value)
  | edit (id : NodeId) (change : Node → Node)
  | editNames (change : NameTable → NameTable)

def Action.ids : Action → List NodeId
  | .perform operation => operation.ids
  | .setAttr id _ _ | .edit id _ => [id]
  | .editNames _ => []

structure History where
  arena : Arena
  given : List NodeId

namespace History

def initial : History := ⟨.empty, []⟩

def apply (history : History) : Action → History
  | .perform (.alloc node) =>
    ⟨(history.arena.alloc node).2, (history.arena.alloc node).1 :: history.given⟩
  | .perform operation => { history with arena := history.arena.perform operation }
  | .setAttr id name value => { history with arena := history.arena.setAttr id name value }
  | .edit id change => { history with arena := history.arena.modifyNode id change }
  | .editNames change =>
    { history with arena := { history.arena with names := change history.arena.names } }

def run (history : History) (actions : List Action) : History :=
  actions.foldl apply history

theorem apply_cases (history : History) (action : Action) :
    (∃ node, history.apply action =
        ⟨(history.arena.alloc node).2, (history.arena.alloc node).1 :: history.given⟩) ∨
      (history.apply action).given = history.given ∧
        history.arena.Tidies (history.apply action).arena := by
  cases action with
  | perform operation =>
    cases operation with
    | alloc node => exact .inl ⟨node, rfl⟩
    | retain id => exact .inr ⟨rfl, .retain _ id⟩
    | release id => exact .inr ⟨rfl, .release _ id⟩
    | releaseIfUnowned id => exact .inr ⟨rfl, .releaseIfUnowned _ id⟩
    | ensureChildren id => exact .inr ⟨rfl, .modifyNode _ id _⟩
    | pushChild parent child => exact .inr ⟨rfl, .pushChild _ parent child⟩
    | insertChild parent index child => exact .inr ⟨rfl, .insertChild _ parent index child⟩
    | setChild parent index child => exact .inr ⟨rfl, .setChild _ parent index child⟩
    | removeChild parent index => exact .inr ⟨rfl, .removeChild _ parent index⟩
    | clearChildren parent => exact .inr ⟨rfl, .clearChildren _ parent⟩
  | setAttr id name value => exact .inr ⟨rfl, .setAttr _ id name value⟩
  | edit id change => exact .inr ⟨rfl, .modifyNode _ id change⟩
  | editNames change => exact .inr ⟨rfl, .names _ _⟩

/-! ## What a history keeps -/

structure Faithful (history : History) : Prop where
  orderly : history.arena.Orderly
  nodup : history.given.Nodup
  issued : ∀ id ∈ history.given, history.arena.Issued id
  live : ∀ id, history.arena.contains id = true → id ∈ history.given

theorem faithful_initial : initial.Faithful where
  orderly := Arena.orderly_empty
  nodup := List.nodup_nil
  issued := nofun
  live id live := by simp [initial, Arena.contains, Arena.live?, Arena.empty] at live

namespace Faithful

variable {history : History}

theorem apply (faithful : history.Faithful) (action : Action) :
    (history.apply action).Faithful := by
  rcases history.apply_cases action with ⟨node, same⟩ | ⟨sameGiven, tidies⟩
  · have follows := Arena.follows_alloc faithful.orderly.wellFormed node
    have new := Arena.not_issued_alloc faithful.orderly.wellFormed node
    rw [same]
    constructor
    · exact faithful.orderly.alloc node
    · exact List.nodup_cons.mpr ⟨fun member => new (faithful.issued _ member), faithful.nodup⟩
    · intro id member
      rcases List.mem_cons.mp member with rfl | earlier
      · exact follows.given (List.mem_singleton_self _)
      · exact follows.issued (faithful.issued id earlier)
    · intro id live
      by_cases fresh : id = (history.arena.alloc node).1
      · exact List.mem_cons.mpr (.inl fresh)
      · have earlier := Arena.contains_of_alloc faithful.orderly fresh live
        exact List.mem_cons_of_mem _ (faithful.live id earlier)
  · constructor
    · exact tidies.orderly faithful.orderly
    · rw [sameGiven]
      exact faithful.nodup
    · intro id member
      rw [sameGiven] at member
      exact tidies.issued (faithful.issued id member)
    · intro id live
      rw [sameGiven]
      exact faithful.live id (tidies.contains live)

theorem run (faithful : history.Faithful) (actions : List Action) :
    (history.run actions).Faithful := by
  induction actions generalizing history with
  | nil => exact faithful
  | cons action actions induction => exact induction (faithful.apply action)

/-- A step makes no node under an id that was given out. -/
theorem stale_apply (faithful : history.Faithful) (action : Action) {id : NodeId}
    (given : id ∈ history.given) (stale : history.arena.contains id = false) :
    id ∈ (history.apply action).given ∧ (history.apply action).arena.contains id = false := by
  rcases history.apply_cases action with ⟨node, same⟩ | ⟨sameGiven, tidies⟩
  · rw [same]
    have old : id ≠ (history.arena.alloc node).1 := by
      rintro rfl
      exact Arena.not_issued_alloc faithful.orderly.wellFormed node (faithful.issued _ given)
    refine ⟨List.mem_cons_of_mem _ given, Bool.eq_false_iff.mpr fun live => ?_⟩
    rw [Arena.contains_of_alloc faithful.orderly old live] at stale
    cases stale
  · refine ⟨by rwa [sameGiven], Bool.eq_false_iff.mpr fun live => ?_⟩
    rw [tidies.contains live] at stale
    cases stale

theorem stale_run (faithful : history.Faithful) (actions : List Action) {id : NodeId}
    (given : id ∈ history.given) (stale : history.arena.contains id = false) :
    (history.run actions).arena.contains id = false := by
  induction actions generalizing history with
  | nil => exact stale
  | cons action actions induction =>
    rcases faithful.stale_apply action given stale with ⟨stillGiven, stillStale⟩
    exact induction (faithful.apply action) stillGiven stillStale

end Faithful

end History

/-! ## Stale ids -/

namespace Arena

variable {arena : Arena} {id : NodeId}

theorem release_of_stale (stale : arena.contains id = false) : arena.release id = arena := by
  simp [release, owners?, live?_of_not_contains stale]

theorem releaseIfUnowned_of_stale (stale : arena.contains id = false) :
    arena.releaseIfUnowned id = arena := by
  simp [releaseIfUnowned, isUnowned, owners?, live?_of_not_contains stale]

theorem canLink_of_stale (stale : arena.contains id = false) : arena.canLink id = false := by
  simp [canLink, live?_of_not_contains stale]

theorem link_refused {parent child : NodeId} (named : id ∈ [parent, child])
    (stale : arena.contains id = false) :
    (arena.contains parent && arena.canLink child) = false := by
  rcases List.mem_pair.mp named with rfl | rfl
  · rw [stale, Bool.false_and]
  · rw [canLink_of_stale stale, Bool.and_false]

theorem pushChild_of_stale {parent child : NodeId} (named : id ∈ [parent, child])
    (stale : arena.contains id = false) : arena.pushChild parent child = (false, arena) := by
  simp [pushChild, link_refused named stale]

theorem setChild_of_stale {parent child : NodeId} (index : Nat) (named : id ∈ [parent, child])
    (stale : arena.contains id = false) : (arena.setChild parent index child).2 = arena := by
  rcases setChild_cases arena parent index child with
    same | ⟨-, same⟩ | ⟨old, stood, linkable, -⟩
  · exact same
  · rw [same, pushChild_of_stale named stale]
  · have refused := link_refused named stale
    rw [contains_of_child stood, linkable] at refused
    cases refused

theorem removeChild_of_stale (index : Nat) (stale : arena.contains id = false) :
    arena.removeChild id index = (false, arena) := by
  simp [removeChild, child?_of_stale (live?_of_not_contains stale)]

theorem clearChildren_of_stale (stale : arena.contains id = false) :
    arena.clearChildren id = arena := by
  have gone := live?_of_not_contains stale
  rw [clearChildren, children_of_stale gone, modifyNode_of_stale gone]
  rfl

theorem perform_of_stale {operation : Operation} (named : id ∈ operation.ids)
    (stale : arena.contains id = false) : arena.perform operation = arena := by
  have gone := live?_of_not_contains stale
  cases operation with
  | alloc node => cases named
  | retain asked =>
    rcases List.mem_singleton.mp named with rfl
    exact retain_of_stale gone
  | release asked =>
    rcases List.mem_singleton.mp named with rfl
    exact release_of_stale stale
  | releaseIfUnowned asked =>
    rcases List.mem_singleton.mp named with rfl
    exact releaseIfUnowned_of_stale stale
  | ensureChildren asked =>
    rcases List.mem_singleton.mp named with rfl
    exact modifyNode_of_stale gone _
  | pushChild parent child => exact congrArg Prod.snd (pushChild_of_stale named stale)
  | insertChild parent index child =>
    change (arena.insertChild parent index child).2 = arena
    simp [insertChild, link_refused named stale]
  | setChild parent index child => exact setChild_of_stale index named stale
  | removeChild parent index =>
    rcases List.mem_singleton.mp named with rfl
    exact congrArg Prod.snd (removeChild_of_stale index stale)
  | clearChildren parent =>
    rcases List.mem_singleton.mp named with rfl
    exact clearChildren_of_stale stale

theorem live?_alloc (orderly : arena.Orderly) (node : Node) :
    (arena.alloc node).2.live? (arena.alloc node).1 =
      some ({ node with children := node.children.map (·.filter arena.contains) }, 0) := by
  have placed := placed_place ((Tidies.adopt arena node).orderly orderly).wellFormed
    (arena.adopt node).1
  have kept : (arena.adopt node).1 =
      { node with children := node.children.map (·.filter arena.contains) } := by
    rcases node with ⟨name, nodeType, attrs, children, status, shareable⟩
    cases children <;> rfl
  rw [← kept]
  exact placed.live?_same

end Arena

namespace History

theorem apply_of_stale (history : History) {action : Action} {id : NodeId}
    (named : id ∈ action.ids) (stale : history.arena.contains id = false) :
    history.apply action = history := by
  have gone := Arena.live?_of_not_contains stale
  cases action with
  | perform operation =>
    have same := Arena.perform_of_stale named stale
    cases operation with
    | alloc node => cases named
    | _ => exact congrArg (History.mk · history.given) same
  | setAttr asked name value =>
    rcases List.mem_singleton.mp named with rfl
    have same : history.arena.setAttr id name value = history.arena := by
      simp [Arena.setAttr, stale]
    exact congrArg (History.mk · history.given) same
  | edit asked change =>
    rcases List.mem_singleton.mp named with rfl
    exact congrArg (History.mk · history.given) (Arena.modifyNode_of_stale gone change)
  | editNames change => cases named

/-- Slots and ids are in order: now, and for the ids that are stale now whatever comes later. -/
structure Regular (history : History) : Prop where
  consistent : history.arena.Consistent
  given_nodup : history.given.Nodup
  given_of_live : ∀ id, history.arena.contains id = true → id ∈ history.given
  stale_for_good : ∀ id ∈ history.given, history.arena.contains id = false →
    ∀ later, (history.run later).arena.contains id = false
  stale_inert : ∀ action, ∀ id ∈ action.ids, history.arena.contains id = false →
    history.apply action = history
  alloc_drops_stale : ∀ node, (history.arena.alloc node).2.live? (history.arena.alloc node).1 =
    some ({ node with children := node.children.map (·.filter history.arena.contains) }, 0)

/-- After any actions on an empty arena the slots and ids are in order. -/
theorem regular_run (actions : List Action) : (initial.run actions).Regular := by
  have faithful := faithful_initial.run actions
  constructor
  · exact faithful.orderly.consistent
  · exact faithful.nodup
  · exact faithful.live
  · intro id given stale later
    exact faithful.stale_run later given stale
  · intro action id named stale
    exact apply_of_stale _ named stale
  · exact Arena.live?_alloc faithful.orderly

-- a slot that is used again gives a new id
example : (initial.run [.perform (.alloc (.ofKind "a" .list)), .perform (.release ⟨0, 0⟩),
    .perform (.alloc (.ofKind "b" .list))]).given = [⟨0, 1⟩, ⟨0, 0⟩] := by
  decide +kernel

end History
end RecordGraph
