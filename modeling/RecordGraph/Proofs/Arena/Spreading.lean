import Mathlib.Logic.Relation
import RecordGraph.Proofs.Arena.History
import RecordGraph.Proofs.Arena.Uprooting

/-!
# Trees that are hung anywhere

Where trees of new nodes are hung under nodes that were there before, these get more children, and
nothing else happens to what was there. No new node lists one that was there, and none is below
itself. Below a node that is held, a node that is put in the place of another one stays: the way to
it does not lead through the one that is given up.
-/

namespace RecordGraph

/-- There may be more children behind those that there were, and nothing else is changed. -/
def Node.GainsChildren (node later : Node) : Prop :=
  (∃ children, later = { node with children }) ∧
    node.childArray.toList <+: later.childArray.toList

namespace Node.GainsChildren

theorem refl (node : Node) : node.GainsChildren node :=
  ⟨⟨node.children, rfl⟩, List.prefix_refl _⟩

theorem trans {first second third : Node} (left : first.GainsChildren second)
    (right : second.GainsChildren third) : first.GainsChildren third := by
  rcases left with ⟨⟨_, rfl⟩, shorter⟩
  rcases right with ⟨⟨children, rfl⟩, longer⟩
  exact ⟨⟨children, rfl⟩, shorter.trans longer⟩

theorem ensureChildren (node : Node) : node.GainsChildren node.ensureChildren := by
  refine ⟨?_, [], by rw [List.append_nil, node.childArray_ensureChildren]⟩
  rcases node with ⟨name, nodeType, attrs, _ | children, status, shareable⟩ <;> exact ⟨_, rfl⟩

theorem push (node : Node) (child : NodeId) : node.GainsChildren (node.push child) := by
  refine ⟨?_, [child], by rw [childArray_push, Array.toList_push]⟩
  rcases node with ⟨name, nodeType, attrs, _ | children, status, shareable⟩ <;> exact ⟨_, rfl⟩

end Node.GainsChildren

namespace Arena

/-! ## Ways down from a node -/

def Reaches (arena : Arena) : NodeId → NodeId → Prop :=
  Relation.ReflTransGen fun parent child => child ∈ arena.children parent

theorem below_iff {arena : Arena} {origin node : NodeId} :
    arena.Below origin node ↔
      Relation.TransGen (fun parent child => child ∈ arena.children parent) origin node := by
  constructor
  · intro below
    induction below with
    | child member => exact .single member
    | deeper _ member induction => exact induction.tail member
  · intro way
    induction way with
    | single member => exact .child member
    | tail _ member induction => exact induction.deeper member

/-! ## Arenas that grow below what was there -/

/-- Nodes that were there may have got more children, which are new, and nothing else happened to
them. What stands below a new node is new, and no new node is below itself. -/
structure Spreads (before after : Arena) : Prop where
  issued : ∀ {id}, before.Issued id → after.Issued id
  stale : ∀ {id}, before.Issued id → before.live? id = none → after.live? id = none
  node : ∀ {id node owners}, before.live? id = some (node, owners) →
    ∃ content, after.live? id = some (content, owners) ∧ node.GainsChildren content
  grown : ∀ {parent index child}, after.child? parent index = some child →
    before.child? parent index = some child ∨ ¬ before.Issued child
  acyclic : ∀ {id}, ¬ before.Issued id → ¬ after.Below id id

namespace Spreads

variable {before middle after arena : Arena} {holds : NodeId → Nat} {parent top : NodeId}

theorem not_below_of_same (same : ∀ id, after.children id = before.children id) {id : NodeId}
    (new : ¬ before.Issued id) : ¬ after.Below id id := by
  intro below
  rcases Relation.TransGen.head'_iff.mp (below_iff.mp below) with ⟨child, member, -⟩
  rw [same] at member
  exact new (issued_of_contains (contains_of_mem_children member))

theorem of_same (issued : ∀ {id}, before.Issued id → after.Issued id)
    (same : ∀ id, after.live? id = before.live? id) : before.Spreads after where
  issued := issued
  stale {id} _ none := (same id).trans none
  node {id node _} found := ⟨node, (same id).trans found, .refl node⟩
  grown {parent _ _} stands := .inl (by rwa [child?, children_congr (same parent)] at stands)
  acyclic := not_below_of_same fun id => children_congr (same id)

theorem refl (arena : Arena) : arena.Spreads arena :=
  of_same id fun _ => rfl

theorem names (arena : Arena) (names : NameTable) : arena.Spreads { arena with names } :=
  of_same id fun _ => rfl

theorem mem_cases (spreads : before.Spreads after) {parent child : NodeId}
    (member : child ∈ after.children parent) :
    child ∈ before.children parent ∨ ¬ before.Issued child := by
  rcases Array.mem_iff_getElem?.mp member with ⟨index, stands⟩
  exact (spreads.grown stands).imp_left Array.mem_of_getElem?

theorem below_cases (spreads : before.Spreads after) {origin node : NodeId}
    (below : after.Below origin node) :
    before.Below origin node ∨
      ∃ between, ¬ before.Issued between ∧ after.Below origin between ∧
        after.Reaches between node := by
  induction below with
  | child member =>
    rcases spreads.mem_cases member with earlier | new
    · exact .inl (.child earlier)
    · exact .inr ⟨_, new, .child member, .refl⟩
  | deeper above member induction =>
    rcases induction with earlier | ⟨between, new, above, under⟩
    · rcases spreads.mem_cases member with last | new
      · exact .inl (earlier.deeper last)
      · exact .inr ⟨_, new, above.deeper member, .refl⟩
    · exact .inr ⟨between, new, above, under.tail member⟩

theorem trans (first : before.Spreads middle) (second : middle.Spreads after) :
    before.Spreads after where
  issued := second.issued ∘ first.issued
  stale known none := second.stale (first.issued known) (first.stale known none)
  node found := by
    rcases first.node found with ⟨between, foundBetween, gains⟩
    rcases second.node foundBetween with ⟨content, foundLater, gainsMore⟩
    exact ⟨content, foundLater, gains.trans gainsMore⟩
  grown stands := by
    rcases second.grown stands with earlier | new
    · exact first.grown earlier
    · exact .inr (new ∘ first.issued)
  acyclic new below := by
    rcases second.below_cases below with earlier | ⟨between, newer, above, under⟩
    · exact first.acyclic new earlier
    · exact second.acyclic newer (below_iff.mpr ((below_iff.mp above).trans_right under))

theorem of_parent (parent : NodeId) {change : Node → Node}
    (issued : ∀ {id}, before.Issued id → after.Issued id)
    (gains : ∀ node : Node, node.GainsChildren (change node))
    (same : ∀ {id}, before.Issued id → after.live? id =
      if id = parent then (before.live? parent).map fun content => (change content.1, content.2)
      else before.live? id)
    (grown : ∀ {id index child}, after.child? id index = some child →
      before.child? id index = some child ∨ ¬ before.Issued child)
    (acyclic : ∀ {id}, ¬ before.Issued id → ¬ after.Below id id) :
    before.Spreads after where
  issued := issued
  stale {id} known none := by
    rw [same known]
    split
    · rename_i equal
      rw [← equal, none, Option.map_none]
    · exact none
  node {id node owners} found := by
    rw [same (issued_of_live found)]
    split
    · rename_i equal
      rw [← equal, found, Option.map_some]
      exact ⟨_, rfl, gains node⟩
    · exact ⟨node, found, .refl node⟩
  grown := grown
  acyclic := acyclic

theorem ensureChildren (arena : Arena) (parent : NodeId) :
    arena.Spreads (arena.ensureChildren parent) := by
  have children (id : NodeId) : (arena.ensureChildren parent).children id = arena.children id :=
    children_modifyNode arena parent id Node.childArray_ensureChildren
  exact of_parent parent (follows_modifyNode arena parent _).issued .ensureChildren
    (fun _ => by rw [Arena.ensureChildren, live?_modifyNode])
    (fun stands => .inl (by rwa [child?, children] at stands)) (not_below_of_same children)

theorem of_plants {tops : List NodeId} (plants : Plants holds [] tops before after) :
    before.Spreads after where
  issued := plants.issued
  stale known none := (plants.kept known List.not_mem_nil).trans none
  node {_ node _} found :=
    ⟨node, (plants.kept (issued_of_live found) List.not_mem_nil).trans found, .refl node⟩
  grown {parent index child} stands := by
    by_cases known : before.Issued parent
    · exact .inl (by rwa [child?, children_congr (plants.kept known List.not_mem_nil)] at stands)
    · exact .inr (plants.closed ⟨issued_of_contains (contains_of_child stands), known⟩
        (Array.mem_of_getElem? stands)).2
  acyclic := plants.not_below_self fun _ => id

theorem attach (inner : Plants holds [] [top] before after)
    (live : before.contains parent = true) : before.Spreads (after.pushChild parent top).2 := by
  have topNew := (inner.top_fresh (List.mem_singleton_self top)).2
  have children := inner.children_attached live
  have reading := inner.live?_attached live
  have issued {id : NodeId} (known : before.Issued id) :
      (after.pushChild parent top).2.Issued id :=
    (issued_pushChild_iff after parent top _).mpr (inner.issued known)
  generalize (after.pushChild parent top).2 = later at *
  -- a new node lists what it listed in the tree
  have listed {id child : NodeId} (new : ¬ before.Issued id) (member : child ∈ later.children id) :
      child ∈ after.children id := by
    have different : id ≠ parent := fun same => new (same ▸ issued_of_contains live)
    rwa [children, if_neg different] at member
  refine of_parent parent issued (.push · top) (fun {id} known => ?_)
    (fun {id index child} stands => ?_) (inner.not_below_self listed)
  · have different : id ≠ top := by
      rintro rfl
      exact topNew known
    rw [reading, if_neg different, inner.live?_inner known]
  · by_cases known : before.Issued id
    · rw [child?, children] at stands
      split at stands
      · rename_i same
        subst same
        rw [Array.getElem?_push] at stands
        split at stands
        · cases stands
          exact .inr topNew
        · exact .inl stands
      · exact .inl (by rwa [child?, ← children_congr (inner.live?_inner known)])
    · have stood := listed known (Array.mem_of_getElem? stands)
      exact .inr (inner.closed
        ⟨issued_of_contains (contains_of_mem_children stood), known⟩ stood).2

theorem uprooted (inner : Plants holds [] [top] before after) (steady : before.Steady [] holds) :
    before.Spreads (after.releaseIfUnowned top) :=
  of_same (fun known => (wanes_releaseIfUnowned after top).issued (inner.issued known))
    (inner.uprooted steady)

section

variable (spreads : before.Spreads after)

include spreads

theorem child {parent child : NodeId} {index : Nat}
    (stands : before.child? parent index = some child) :
    after.child? parent index = some child := by
  rcases contains_iff.mp (contains_of_child stands) with ⟨node, owners, found⟩
  rcases spreads.node found with ⟨content, standing, -, ids, longer⟩
  rw [child?, children_of_live found, ← Array.getElem?_toList] at stands
  have inside : index < node.childArray.toList.length := (List.getElem?_eq_some_iff.mp stands).1
  rw [child?, children_of_live standing, ← Array.getElem?_toList, ← longer,
    List.getElem?_append_left inside, stands]

theorem mem_children {parent child : NodeId} (member : child ∈ before.children parent) :
    child ∈ after.children parent := by
  rcases Array.mem_iff_getElem?.mp member with ⟨index, stands⟩
  exact Array.mem_of_getElem? (spreads.child stands)

theorem contains {id : NodeId} (known : before.Issued id) :
    after.contains id = before.contains id := by
  cases found : before.live? id with
  | none => simp [Arena.contains, found, spreads.stale known found]
  | some content =>
    rcases spreads.node found with ⟨later, standing, -⟩
    simp [Arena.contains, found, standing]

end
end Spreads

/-! ## What stands at the end of a way -/

theorem Spreads.reaches {before after : Arena} (spreads : before.Spreads after)
    {origin node : NodeId} (reaches : before.Reaches origin node) : after.Reaches origin node :=
  Relation.ReflTransGen.mono (fun _ _ => spreads.mem_children) _ _ reaches

variable {arena later : Arena} {holds : NodeId → Nat} {origin parent child old : NodeId}
  {index : Nat}

theorem Reaches.contains (reaches : arena.Reaches origin parent)
    (live : arena.contains parent = true) : arena.contains origin = true := by
  cases reaches using Relation.ReflTransGen.head_induction_on with
  | refl => exact live
  | head step _ => exact contains_of_mem_children step

/-- The end of a way stays while its beginning does, if no list changes on the way but that of the
end. -/
theorem Reaches.contains_put (reaches : arena.Reaches origin parent)
    (steady : later.Steady [] holds)
    (kept : ∀ {id other}, id ≠ parent → later.contains id = true → other ∈ arena.children id →
      other ∈ later.children id)
    (put : later.contains parent = true → child ∈ later.children parent)
    (standing : later.contains origin = true) : later.contains child = true := by
  induction reaches using Relation.ReflTransGen.head_induction_on with
  | refl => exact steady.child_live (put standing)
  | @head id next step _ induction =>
    by_cases same : id = parent
    · exact steady.child_live (put (same ▸ standing))
    · exact induction (steady.child_live (kept same standing step))

/-- Below a node that is held, a node that is put in the place of another one is there afterwards:
the way to the place does not lead through the node that is given up for it. -/
theorem contains_setChild (steady : arena.Steady [] holds) (held : 0 < holds origin)
    (reaches : arena.Reaches origin parent) (stood : arena.child? parent index = some old)
    (live : arena.contains child = true) :
    (arena.setChild parent index child).2.contains child = true := by
  rw [setChild_of_child stood]
  split
  · rename_i allowed
    rcases (steady.exchange stood allowed.2).release with ⟨released, wanes⟩
    have listed {id : NodeId}
        (standing : ((arena.exchanged parent index child).release old).contains id = true) :
        ((arena.exchanged parent index child).release old).children id =
          if id = parent then (arena.children parent).setIfInBounds index child
          else arena.children id :=
      (wanes.children standing).trans (children_exchanged arena parent child id index)
    apply reaches.contains_put released
    · intro id other different standing member
      rwa [listed standing, if_neg different]
    · intro standing
      have inside := (Array.getElem?_eq_some_iff.mp stood).1
      rw [listed standing, if_pos rfl]
      exact Array.mem_of_getElem? (by rw [Array.getElem?_setIfInBounds_self, if_pos inside])
    · have count := released.ownerCount_eq origin
      exact contains_of_ownerCount_pos (by omega)
  · exact live

end Arena
end RecordGraph
