import RecordGraph.Proofs.Arena.Survivors

/-!
# Teardown is exact

An operation that gives up a hold or links first edits the arena, without freeing anything, and then
gives up owners. Where no node is below itself, what stands afterwards is what links lead to from
the nodes that are still held and from those that nobody owned.
-/

namespace RecordGraph

def Operation.edited? : Operation → Option NodeId
  | .ensureChildren id | .clearChildren id => some id
  | .pushChild parent _ | .insertChild parent _ _ | .setChild parent _ _ | .removeChild parent _ =>
    some parent
  | .alloc _ | .retain _ | .release _ | .releaseIfUnowned _ => none

namespace Ledger

variable {ledger : Ledger} {operation : Operation} {edited : Arena} {owed : List NodeId}

def GivesUp (ledger : Ledger) : Operation → Prop
  | .release id => 0 < ledger.holds id
  | .setChild _ _ _ | .removeChild _ _ | .clearChildren _ => True
  | _ => False

instance (ledger : Ledger) : (operation : Operation) → Decidable (ledger.GivesUp operation)
  | .release id => inferInstanceAs (Decidable (0 < ledger.holds id))
  | .setChild _ _ _ | .removeChild _ _ | .clearChildren _ => .isTrue trivial
  | .alloc _ | .retain _ | .releaseIfUnowned _ | .ensureChildren _ | .pushChild _ _
  | .insertChild _ _ _ => .isFalse id

/-- The child lists as they are to be after an operation that gives up owners. -/
def linksAfter (ledger : Ledger) : Operation → NodeId → Array NodeId
  | .setChild parent index child =>
    let links := ledger.arena.children
    if (ledger.arena.setChild parent index child).1 then
      Function.update links parent
        (if index = (links parent).size then (links parent).push child
          else (links parent).setIfInBounds index child)
    else links
  | .removeChild parent index =>
    let links := ledger.arena.children
    Function.update links parent ((links parent).eraseIdxIfInBounds index)
  | .clearChildren parent => Function.update ledger.arena.children parent #[]
  | _ => ledger.arena.children

/-- What links lead to from the nodes that are held afterwards and from those that nobody owned
before. -/
inductive Reachable (ledger : Ledger) (operation : Operation) : NodeId → Prop
  | held {id : NodeId} : 0 < (ledger.apply operation).holds id → ledger.Reachable operation id
  | unowned {id : NodeId} : ledger.arena.isUnowned id = true → ledger.Reachable operation id
  | child {parent id : NodeId} : ledger.Reachable operation parent →
      id ∈ ledger.linksAfter operation parent → ledger.Reachable operation id

structure Severs (ledger : Ledger) (operation : Operation) (edited : Arena)
    (owed : List NodeId) : Prop where
  result : (ledger.apply operation).arena = owed.foldl Arena.release edited
  steady : edited.Steady (owed ++ []) (ledger.apply operation).holds
  links : ∀ id, edited.children id = ledger.linksAfter operation id
  relists : ledger.arena.Relists edited operation.edited?
  unowned : ∀ {id}, ledger.arena.isUnowned id = true →
    (ledger.apply operation).arena.contains id = true

namespace Severs

variable (severs : ledger.Severs operation edited owed)

include severs

theorem later : (ledger.apply operation).arena.Steady [] (ledger.apply operation).holds ∧
    edited.Wanes (ledger.apply operation).arena := by
  rw [severs.result]
  exact severs.steady.releaseAll

theorem children {id : NodeId} (standing : (ledger.apply operation).arena.contains id = true) :
    (ledger.apply operation).arena.children id = ledger.linksAfter operation id := by
  rw [severs.later.2.children standing, severs.links]

theorem survives : ledger.arena.Relists (ledger.apply operation).arena operation.edited? :=
  severs.relists.trans (.of_wanes severs.later.2 _)

theorem contains_iff {id : NodeId}
    (loopless : ∀ id, ¬ (ledger.apply operation).arena.Below id id) :
    (ledger.apply operation).arena.contains id = true ↔ ledger.Reachable operation id := by
  have steady := severs.later.1
  constructor
  · intro live
    rcases steady.exists_root (Arena.acyclic_of_not_below loopless) live with ⟨root, isRoot, way⟩
    have start : ledger.Reachable operation root :=
      isRoot.elim .held fun unowned => .unowned (severs.survives.unowned unowned)
    clear isRoot live
    induction way with
    | refl => exact start
    | tail _ member induction =>
      rw [severs.children (Arena.contains_of_mem_children member)] at member
      exact .child induction member
  · intro reachable
    induction reachable with
    | held held => exact steady.contains_of_held held
    | unowned unowned => exact severs.unowned unowned
    | child _ member induction =>
      rw [← severs.children induction] at member
      exact steady.child_live member

end Severs

/-! ## Each operation -/

section

variable (steady : ledger.arena.Steady [] ledger.holds)

include steady

theorem severs_release {id : NodeId} (held : 0 < ledger.holds id) :
    ledger.Severs (.release id) ledger.arena [id] where
  result := rfl
  steady := steady.giveUp held
  links _ := rfl
  relists := .refl _ _
  unowned unowned := by
    have owing : ledger.arena.Steady ([id] ++ []) _ := steady.giveUp held
    exact Arena.contains_releaseAll_of_unowned owing unowned

theorem severs_of_same (same : ledger.apply operation = ledger)
    (links : ledger.linksAfter operation = ledger.arena.children) :
    ledger.Severs operation ledger.arena [] where
  result := by rw [same, List.foldl_nil]
  steady := by rw [same]; exact steady
  links id := by rw [links]
  relists := .refl _ _
  unowned unowned := by
    rcases Arena.isUnowned_iff.mp unowned with ⟨node, found⟩
    rw [same]
    exact Arena.contains_iff.mpr ⟨node, 0, found⟩

theorem severs_removeChild (parent : NodeId) (index : Nat) :
    ∃ edited owed, ledger.Severs (.removeChild parent index) edited owed := by
  cases stood : ledger.arena.child? parent index with
  | none =>
    refine ⟨_, _, severs_of_same steady (by simp only [apply, Arena.removeChild, stood]) ?_⟩
    have beyond := Array.getElem?_eq_none_iff.mp stood
    simp [linksAfter, Array.eraseIdxIfInBounds, Nat.not_lt.mpr beyond]
  | some old =>
    have owing : (ledger.arena.dropped parent index).Steady ([old] ++ []) _ := steady.drop stood
    refine ⟨_, [old], Arena.removeChild_of_child stood, owing, fun id => ?_, .modifyNode _ parent
      fun _ => rfl, fun unowned => ?_⟩
    · rw [Arena.children_dropped, linksAfter, Function.update_apply]
    · rw [apply, Arena.removeChild_of_child stood]
      refine Arena.contains_releaseAll_of_unowned owing ?_
      rw [Arena.dropped, Arena.isUnowned_modifyNode, unowned]

theorem severs_clearChildren (parent : NodeId) :
    ledger.Severs (.clearChildren parent) (ledger.arena.emptied parent)
      (ledger.arena.children parent).toList where
  result := ledger.arena.clearChildren_eq parent
  steady := steady.empty parent
  links id := by rw [Arena.children_emptied, linksAfter, Function.update_apply]
  relists := .modifyNode _ parent fun _ => rfl
  unowned unowned := by
    rw [apply, Arena.clearChildren_eq]
    refine Arena.contains_releaseAll_of_unowned (steady.empty parent) ?_
    rw [Arena.emptied, Arena.isUnowned_modifyNode, unowned]

theorem severs_pushed {parent child : NodeId} {index : Nat}
    (live : ledger.arena.contains parent = true)
    (result : ledger.arena.setChild parent index child =
      (true, (ledger.arena.retain child).modifyNode parent (·.push child)))
    (atEnd : index = (ledger.arena.children parent).size) :
    ledger.Severs (.setChild parent index child)
      ((ledger.arena.retain child).modifyNode parent (·.push child)) [] where
  result := by rw [apply, result, List.foldl_nil]
  steady := by
    rw [show (ledger.arena.retain child).modifyNode parent (·.push child) =
      (ledger.arena.setChild parent index child).2 by rw [result]]
    exact steady.setChild parent index child
  links id := by
    rw [ledger.arena.children_pushed live, linksAfter, result, if_pos rfl, Function.update_apply,
      if_pos atEnd]
  relists := .pushed _ parent child
  unowned unowned := by
    rcases Arena.isUnowned_iff.mp unowned with ⟨node, found⟩
    rw [apply, result, Arena.contains_modifyNode, Arena.contains_retain]
    exact Arena.contains_iff.mpr ⟨node, 0, found⟩

theorem severs_exchanged (loopless : ∀ id, ¬ ledger.arena.Below id id) {parent child old : NodeId}
    {index : Nat} (stood : ledger.arena.child? parent index = some old)
    (linkable : ledger.arena.canLink child = true)
    (result : ledger.arena.setChild parent index child =
      (true, (ledger.arena.exchanged parent index child).release old)) :
    ledger.Severs (.setChild parent index child) (ledger.arena.exchanged parent index child)
      [old] where
  result := by rw [apply, result, List.foldl_cons, List.foldl_nil]
  steady := steady.exchange stood linkable
  links id := by
    have inside := (Array.getElem?_eq_some_iff.mp stood).1
    rw [Arena.children_exchanged, linksAfter, result, if_pos rfl, Function.update_apply,
      if_neg (Nat.ne_of_lt inside)]
  relists := .exchanged _ parent child index
  unowned {id} unowned := by
    rw [apply, result]
    by_cases entered : id = child
    · subst entered
      -- the parent stands, and the child stands in its list by now
      rcases (steady.exchange stood linkable).release with ⟨later, wanes⟩
      have standing : ((ledger.arena.exchanged parent index id).release old).contains parent =
          true := by
        rw [Arena.contains, Arena.live?_release_exchanged steady loopless stood linkable,
          ← Arena.contains, Arena.exchanged, Arena.contains_modifyNode, Arena.contains_retain]
        exact Arena.contains_of_child stood
      have inside := (Array.getElem?_eq_some_iff.mp stood).1
      have listed : id ∈
          ((ledger.arena.exchanged parent index id).release old).children parent := by
        rw [wanes.children standing, Arena.children_exchanged, if_pos rfl]
        exact Array.mem_of_getElem? (by rw [Array.getElem?_setIfInBounds_self, if_pos inside])
      exact later.child_live listed
    · exact Arena.contains_exchanged steady stood linkable (.inr ⟨entered, unowned⟩)

theorem severs_setChild (loopless : ∀ id, ¬ ledger.arena.Below id id) (parent : NodeId)
    (index : Nat) (child : NodeId) :
    ∃ edited owed, ledger.Severs (.setChild parent index child) edited owed := by
  -- an edit that is refused leaves the ledger and the lists as they were
  have refused (same : ledger.arena.setChild parent index child = (false, ledger.arena)) :
      ∃ edited owed, ledger.Severs (.setChild parent index child) edited owed :=
    ⟨_, _, severs_of_same steady (by rw [apply, same]) (by simp [linksAfter, same])⟩
  cases stood : ledger.arena.child? parent index with
  | none =>
    have result := ledger.arena.setChild_eq_of_none child stood
    by_cases atEnd : ledger.arena.contains parent = true ∧
        index = ledger.arena.childCount parent
    · rw [if_pos atEnd, Arena.pushChild] at result
      by_cases linkable : ledger.arena.canLink child = true
      · rw [atEnd.1, linkable, Bool.and_true, if_pos rfl] at result
        exact ⟨_, _, severs_pushed steady atEnd.1 result atEnd.2⟩
      · rw [Bool.not_eq_true] at linkable
        exact refused (by simpa [linkable] using result)
    · exact refused (result.trans (if_neg atEnd))
  | some old =>
    have result := ledger.arena.setChild_eq_of_child child stood
    by_cases same : old = child
    · subst same
      rw [if_pos rfl] at result
      refine ⟨_, _, severs_of_same steady (by rw [apply, result]) ?_⟩
      rcases Array.getElem?_eq_some_iff.mp stood with ⟨inside, rfl⟩
      simp only [linksAfter, result, ↓reduceIte, Nat.ne_of_lt inside, Function.update_eq_self_iff]
      rw [Array.setIfInBounds, dif_pos inside, Array.set_getElem_self]
    · by_cases linkable : ledger.arena.canLink child = true
      · rw [if_neg same, if_pos linkable] at result
        exact ⟨_, _, severs_exchanged steady loopless stood linkable result⟩
      · exact refused (by rw [result, if_neg same, if_neg linkable])

end

/-! ## Teardown is exact -/

/-- Where no node is below itself, before or afterwards, an operation that gives up a hold or links
frees all nodes that no root leads to any more, and no others. What stays keeps all that it had,
but for the child list that was edited. -/
theorem teardown_exact (steady : ledger.arena.Steady [] ledger.holds)
    (gives : ledger.GivesUp operation) (loopless : ∀ id, ¬ ledger.arena.Below id id)
    (looplessAfter : ∀ id, ¬ (ledger.apply operation).arena.Below id id) :
    (∀ id, (ledger.apply operation).arena.contains id = true ↔ ledger.Reachable operation id) ∧
      (ledger.apply operation).arena.names = ledger.arena.names ∧
      ∀ id node, (ledger.apply operation).arena.node? id = some node →
        node.childArray = ledger.linksAfter operation id ∧
          ∃ earlier, ledger.arena.node? id = some earlier ∧
            node = { earlier with children := node.children } ∧
            (operation.edited? ≠ some id → node = earlier) := by
  have severs : ∃ edited owed, ledger.Severs operation edited owed := by
    cases operation with
    | release id => exact ⟨_, _, severs_release steady gives⟩
    | setChild parent index child => exact severs_setChild steady loopless parent index child
    | removeChild parent index => exact severs_removeChild steady parent index
    | clearChildren parent => exact ⟨_, _, severs_clearChildren steady parent⟩
    | _ => exact gives.elim
  rcases severs with ⟨edited, owed, severs⟩
  refine ⟨fun id => severs.contains_iff looplessAfter, severs.survives.names,
    fun id node found => ⟨?_, severs.survives.node found⟩⟩
  rw [← Arena.children_of_node? found]
  exact severs.children (Arena.contains_of_node? found)

/-- A node that is held lists a first one and a second one, which the first one lists twice. Nobody
owns a fourth one, and the first and the second one both list what it lists. -/
def overlapping : Ledger :=
  initial.run [.alloc (.ofKind "held" .list), .alloc (.ofKind "first" .list),
    .alloc (.ofKind "second" .list), .alloc (.ofKind "loose" .list),
    .alloc (.ofKind "shared" .list), .alloc (.ofKind "last" .list), .retain ⟨0, 0⟩,
    .pushChild ⟨0, 0⟩ ⟨1, 0⟩, .pushChild ⟨0, 0⟩ ⟨2, 0⟩, .pushChild ⟨1, 0⟩ ⟨2, 0⟩,
    .pushChild ⟨1, 0⟩ ⟨2, 0⟩, .pushChild ⟨1, 0⟩ ⟨4, 0⟩, .pushChild ⟨2, 0⟩ ⟨4, 0⟩,
    .pushChild ⟨3, 0⟩ ⟨4, 0⟩, .pushChild ⟨1, 0⟩ ⟨5, 0⟩]

/-- Where the loose node takes the place of the first one, that one goes with what only it lists,
and what others list too stays. -/
theorem teardown_exact_overlapping :
    (∀ index ∈ [1, 5], ¬ overlapping.Reachable (.setChild ⟨0, 0⟩ 0 ⟨3, 0⟩) ⟨index, 0⟩) ∧
      ∀ index ∈ [0, 2, 3, 4], overlapping.Reachable (.setChild ⟨0, 0⟩ 0 ⟨3, 0⟩) ⟨index, 0⟩ := by
  have gives : overlapping.GivesUp (.setChild ⟨0, 0⟩ 0 ⟨3, 0⟩) := trivial
  have steady : overlapping.arena.Steady [] overlapping.holds :=
    steady_run Arena.steady_empty (by decide +kernel)
  have exact := teardown_exact steady gives
    (Arena.acyclic_of_namesLater (by decide +kernel)).not_below
    (Arena.acyclic_of_namesLater (by decide +kernel)).not_below
  simp only [← exact.1]
  decide +kernel

end Ledger
end RecordGraph
