import RecordGraph.Proofs.Arena.Survivors

/-!
# Nodes that are not shareable

A node that is not shareable is linked only while it has no owner, so wherever links are made one by
one it comes to stand in one place at most. A node that brings children along when it is stored is
the exception: the arena owns its children without asking whether they may be linked.
-/

namespace RecordGraph
namespace Arena

variable {arena before middle after : Arena} {id parent child : NodeId} {entered : Option NodeId}

def setShareable (arena : Arena) (id : NodeId) (shareable : Bool) : Arena :=
  arena.modifyNode id fun node => { node with shareable }

/-! ## Places in child lists -/

theorem occurrences_modifyNode_le (arena : Arena) (parent : NodeId) {change : Node → Node}
    {more : Nat} (bounded : ∀ node : Node, (change node).childArray.count id ≤
      node.childArray.count id + more) :
    (arena.modifyNode parent change).occurrences id ≤ arena.occurrences id + more := by
  cases found : arena.live? parent with
  | none =>
    rw [modifyNode_of_stale found]
    exact Nat.le_add_right ..
  | some content =>
    have sum := total_putSlot (live?_eq_some_iff.mp found)
      ⟨parent.generation, .live (change content.1) content.2⟩ (Slot.occurrences id)
    have bound := bounded content.1
    rw [modifyNode_of_live found, occurrences, occurrences]
    simp only [Slot.occurrences] at sum
    omega

theorem occurrences_retain_le (arena : Arena) (child id : NodeId) :
    (arena.retain child).occurrences id ≤ arena.occurrences id := by
  cases found : arena.live? child with
  | none => rw [retain_of_stale found]
  | some content =>
    have sum := total_putSlot (live?_eq_some_iff.mp found)
      ⟨child.generation, .live content.1 (content.2 + 1)⟩ (Slot.occurrences id)
    rw [retain_of_live found, occurrences, occurrences]
    simp only [Slot.occurrences] at sum
    omega

theorem occurrences_setShareable_le (arena : Arena) (id : NodeId) (shareable : Bool)
    (asked : NodeId) :
    (arena.setShareable id shareable).occurrences asked ≤ arena.occurrences asked := by
  rw [← Nat.add_zero (arena.occurrences asked)]
  exact occurrences_modifyNode_le arena id fun _ => Nat.le_refl _

theorem Wanes.occurrences_le (wanes : before.Wanes after) (id : NodeId) :
    after.occurrences id ≤ before.occurrences id := by
  refine total_le_total fun index slot found positive => ?_
  rcases slot with ⟨generation, ⟨node, owners⟩ | node | _⟩
  · have live : after.live? ⟨index, generation⟩ = some (node, owners) := live?_eq_some_iff.mpr found
    rcases wanes.live live with ⟨earlier, known, -⟩
    exact ⟨_, live?_eq_some_iff.mp known, Nat.le_refl _⟩
  · exact absurd positive (Nat.lt_irrefl 0)
  · exact absurd positive (Nat.lt_irrefl 0)

/-! ## Links one by one -/

structure Admits (before after : Arena) (entered : Option NodeId) : Prop where
  tidies : before.Tidies after
  relists : ∃ place, before.Relists after place
  linkable : ∀ {id}, entered = some id → before.canLink id = true
  owned : ∀ {id}, entered = some id → after.isUnowned id = false
  occurrences : ∀ id,
    after.occurrences id ≤ before.occurrences id + if entered = some id then 1 else 0

namespace Admits

theorem of_wanes (wanes : before.Wanes after) (tidies : before.Tidies after) :
    before.Admits after none :=
  ⟨tidies, ⟨none, .of_wanes wanes none⟩, nofun, nofun, wanes.occurrences_le⟩

theorem refl (arena : Arena) : arena.Admits arena none :=
  of_wanes (.refl arena) (.refl arena)

theorem trans_wanes (admits : before.Admits middle entered) (wanes : middle.Wanes after)
    (tidies : middle.Tidies after) : before.Admits after entered where
  tidies := admits.tidies.trans tidies
  relists := by
    rcases admits.relists with ⟨place, relists⟩
    exact ⟨place, relists.trans (.of_wanes wanes place)⟩
  linkable := admits.linkable
  owned enters := by
    rw [Bool.eq_false_iff]
    intro unowned
    have earlier := ((Follows.of_wanes wanes).unowned unowned).resolve_right List.not_mem_nil
    exact Bool.eq_false_iff.mp (admits.owned enters) earlier
  occurrences id := (wanes.occurrences_le id).trans (admits.occurrences id)

theorem retain (arena : Arena) (id : NodeId) : arena.Admits (arena.retain id) none :=
  ⟨.retain arena id, ⟨none, .retain arena id none⟩, nofun, nofun, occurrences_retain_le arena id⟩

theorem shrink (arena : Arena) (parent : NodeId) {change : Node → Node}
    (only : ∀ node, change node = { node with children := (change node).children })
    (fewer : ∀ (node : Node) id, (change node).childArray.count id ≤ node.childArray.count id) :
    arena.Admits (arena.modifyNode parent change) none :=
  ⟨.modifyNode arena parent change, ⟨_, .modifyNode arena parent only⟩, nofun, nofun,
    fun id => occurrences_modifyNode_le arena parent fun node => fewer node id⟩

theorem link (linkable : arena.canLink child = true) (parent : NodeId) {change : Node → Node}
    (only : ∀ node, change node = { node with children := (change node).children })
    (enters : ∀ (node : Node) id, (change node).childArray.count id ≤
      node.childArray.count id + if some child = some id then 1 else 0) :
    arena.Admits ((arena.retain child).modifyNode parent change) (some child) where
  tidies := .link arena parent child change
  relists := ⟨_, (Relists.retain arena child _).trans (.modifyNode _ parent only)⟩
  linkable := by
    rintro _ ⟨⟩
    exact linkable
  owned := by
    rintro _ ⟨⟩
    rw [isUnowned_modifyNode, isUnowned_retain_self]
  occurrences id :=
    (occurrences_modifyNode_le _ parent fun node => enters node id).trans
      (Nat.add_le_add_right (occurrences_retain_le arena child id) _)

theorem pushChild (arena : Arena) (parent child : NodeId) :
    ∃ entered, arena.Admits (arena.pushChild parent child).2 entered := by
  unfold Arena.pushChild
  split
  · rename_i allowed
    rw [Bool.and_eq_true] at allowed
    refine ⟨_, link allowed.2 parent (fun node => ?_) fun node id => ?_⟩
    · rcases (Node.GainsChildren.push node child).1 with ⟨children, same⟩
      rw [same]
    · simp [Array.count_push]
  · exact ⟨none, refl arena⟩

theorem insertChild (arena : Arena) (parent : NodeId) (index : Nat) (child : NodeId) :
    ∃ entered, arena.Admits (arena.insertChild parent index child).2 entered := by
  unfold Arena.insertChild
  split
  · rename_i allowed
    rw [Bool.and_eq_true] at allowed
    refine ⟨_, link allowed.2 parent (fun _ => rfl) fun node id => ?_⟩
    have counts := count_insertIdx node.childArray (Nat.min_le_right index _) child id
    simp only [Node.childArray, Option.getD_some, List.count_singleton, beq_iff_eq] at counts ⊢
    simp [counts, Nat.add_comm]
  · exact ⟨none, refl arena⟩

theorem exchanged (linkable : arena.canLink child = true) (parent : NodeId) (index : Nat) :
    arena.Admits (arena.exchanged parent index child) (some child) := by
  refine link linkable parent (fun _ => rfl) fun node id => ?_
  cases present : node.children with
  | none => simp [Node.childArray, present]
  | some children =>
    cases stood : children[index]? with
    | none =>
      have beyond := Array.getElem?_eq_none_iff.mp stood
      simp [Node.childArray, present, Array.setIfInBounds, Nat.not_lt.mpr beyond]
    | some old =>
      have counts := count_set stood child id
      simp only [Node.childArray, present, Option.map_some, Option.getD_some, List.count_cons,
        List.count_nil, beq_iff_eq] at counts ⊢
      simp only [Option.some.injEq]
      omega

theorem setChild (arena : Arena) (parent : NodeId) (index : Nat) (child : NodeId) :
    ∃ entered, arena.Admits (arena.setChild parent index child).2 entered := by
  rcases setChild_cases arena parent index child with
    same | ⟨-, same⟩ | ⟨old, -, linkable, same⟩
  · rw [same]
    exact ⟨none, refl arena⟩
  · rw [same]
    exact pushChild arena parent child
  · rw [same]
    exact ⟨_, (exchanged linkable parent index).trans_wanes (wanes_release _ old) (.release _ old)⟩

theorem removeChild (arena : Arena) (parent : NodeId) (index : Nat) :
    arena.Admits (arena.removeChild parent index).2 none := by
  cases stood : arena.child? parent index with
  | none =>
    rw [Arena.removeChild, stood]
    exact refl arena
  | some old =>
    rw [removeChild_of_child stood]
    refine (shrink arena parent (fun _ => rfl) fun node id => ?_).trans_wanes (wanes_release _ old)
      (.release _ old)
    cases present : node.children with
    | none => simp [Node.childArray, present]
    | some children =>
      cases found : children[index]? with
      | none =>
        have beyond := Array.getElem?_eq_none_iff.mp found
        simp [Node.childArray, present, Array.eraseIdxIfInBounds, Nat.not_lt.mpr beyond]
      | some gone =>
        have counts := count_eraseIdx found id
        simp only [Node.childArray, present, Option.map_some, Option.getD_some]
        omega

theorem clearChildren (arena : Arena) (parent : NodeId) :
    arena.Admits (arena.clearChildren parent) none := by
  rw [clearChildren_eq]
  have emptied : arena.Admits (arena.emptied parent) none :=
    shrink arena parent (fun _ => rfl) fun node id => by
      cases present : node.children <;> simp [Node.childArray, present]
  exact emptied.trans_wanes (wanes_releaseAll _ _) (.foldl .release _ _)

theorem perform (arena : Arena) {operation : Operation}
    (stores : ∀ node, operation ≠ .alloc node) :
    ∃ entered, arena.Admits (arena.perform operation) entered := by
  cases operation with
  | alloc node => exact absurd rfl (stores node)
  | retain id => exact ⟨none, retain arena id⟩
  | release id => exact ⟨none, of_wanes (wanes_release arena id) (.release arena id)⟩
  | releaseIfUnowned id =>
    exact ⟨none, of_wanes (wanes_releaseIfUnowned arena id) (.releaseIfUnowned arena id)⟩
  | ensureChildren id =>
    refine ⟨none, shrink arena id (fun node => ?_) fun node other => ?_⟩
    · rcases (Node.GainsChildren.ensureChildren node).1 with ⟨children, same⟩
      rw [same]
    · rw [Node.childArray_ensureChildren]
  | pushChild parent child => exact pushChild arena parent child
  | insertChild parent index child => exact insertChild arena parent index child
  | setChild parent index child => exact setChild arena parent index child
  | removeChild parent index => exact ⟨none, removeChild arena parent index⟩
  | clearChildren parent => exact ⟨none, clearChildren arena parent⟩

end Admits

/-! ## Nodes that are stored with children -/

theorem Relists.adopt (arena : Arena) (node : Node) (place : Option NodeId) :
    arena.Relists (arena.adopt node).2 place :=
  @adopt_induction arena (arena.Relists · place) node (.refl arena place)
    fun later child kept => kept.trans (retain later child place)

theorem isUnowned_retainAll {children : List NodeId} (member : id ∈ children) :
    (children.foldl Arena.retain arena).isUnowned id = false := by
  induction children generalizing arena with
  | nil => cases member
  | cons child children induction =>
    rcases List.mem_cons.mp member with rfl | later
    · rw [Bool.eq_false_iff]
      intro unowned
      have earlier := (follows_retainAll (arena.retain id) children).unowned unowned
      rw [isUnowned_retain_self] at earlier
      simp at earlier
    · exact induction later

section

variable (orderly : arena.Orderly) (node : Node)

include orderly

/-- A new node takes its children along without being asked whether they may be linked. -/
theorem occurrences_alloc_le (id : NodeId) : (arena.alloc node).2.occurrences id ≤
    arena.occurrences id + (node.childArray.filter arena.contains).count id := by
  have placed := placed_place ((Tidies.adopt arena node).orderly orderly).wellFormed
    (arena.adopt node).1
  have sum := placed.sums (Slot.occurrences id) fun _ => rfl
  have adopted : (arena.adopt node).2.occurrences id ≤ arena.occurrences id :=
    @adopt_induction arena (·.occurrences id ≤ arena.occurrences id) node le_rfl
      fun later child fewer => (occurrences_retain_le later child id).trans fewer
  rw [← childArray_adopt arena node]
  exact (Nat.le_of_eq sum).trans (Nat.add_le_add_right adopted _)

theorem unowned_of_alloc (unowned : (arena.alloc node).2.isUnowned id = true) :
    id = (arena.alloc node).1 ∨
      arena.isUnowned id = true ∧ id ∉ node.childArray.filter arena.contains := by
  have placed := placed_place ((Tidies.adopt arena node).orderly orderly).wellFormed
    (arena.adopt node).1
  rcases placed.follows.unowned unowned with earlier | new
  · refine .inr ⟨((follows_adopt arena node).unowned earlier).resolve_right List.not_mem_nil,
      fun member => ?_⟩
    rw [adopt_eq_retainAll, isUnowned_retainAll (Array.mem_toList_iff.mpr member)] at earlier
    cases earlier
  · exact .inl (List.mem_singleton.mp new)

end

/-! ## Nodes without owners stand in no list -/

structure Unlisted (arena : Arena) : Prop where
  orderly : arena.Orderly
  unowned : ∀ {id}, arena.isUnowned id = true → arena.occurrences id = 0
  unissued : ∀ {id}, ¬ arena.Issued id → arena.occurrences id = 0

theorem unlisted_empty : Arena.empty.Unlisted :=
  ⟨orderly_empty, fun _ => rfl, fun _ => rfl⟩

namespace Unlisted

theorem admits (unlisted : before.Unlisted) (admits : before.Admits after entered) :
    after.Unlisted where
  orderly := admits.tidies.orderly unlisted.orderly
  unowned {id} unowned := by
    rcases admits.relists with ⟨_, relists⟩
    have none := unlisted.unowned (relists.unowned unowned)
    have bound := admits.occurrences id
    have other : entered ≠ some id := fun enters => by
      rw [admits.owned enters] at unowned
      cases unowned
    rw [if_neg other] at bound
    omega
  unissued {id} new := by
    have before := fun issued => new (admits.tidies.issued issued)
    have none := unlisted.unissued before
    have bound := admits.occurrences id
    have other : entered ≠ some id := fun enters =>
      before (issued_of_contains (contains_of_canLink (admits.linkable enters)))
    rw [if_neg other] at bound
    omega

theorem alloc (unlisted : arena.Unlisted) (node : Node) : (arena.alloc node).2.Unlisted where
  orderly := unlisted.orderly.alloc node
  unowned {id} unowned := by
    have bound := occurrences_alloc_le unlisted.orderly node id
    rcases unowned_of_alloc unlisted.orderly node unowned with rfl | ⟨earlier, absent⟩
    · have new := not_issued_alloc unlisted.orderly.wellFormed node
      rw [unlisted.unissued new, Array.count_eq_zero.mpr] at bound
      · exact Nat.le_zero.mp bound
      · intro member
        exact new (issued_of_contains (Array.mem_filter.mp member).2)
    · rw [unlisted.unowned earlier, Array.count_eq_zero.mpr absent] at bound
      exact Nat.le_zero.mp bound
  unissued {id} new := by
    have bound := occurrences_alloc_le unlisted.orderly node id
    have before := fun issued =>
      new ((follows_alloc unlisted.orderly.wellFormed node).issued issued)
    rw [unlisted.unissued before, Array.count_eq_zero.mpr] at bound
    · exact Nat.le_zero.mp bound
    · intro member
      exact before (issued_of_contains (Array.mem_filter.mp member).2)

theorem setShareable (unlisted : arena.Unlisted) (id : NodeId) (shareable : Bool) :
    (arena.setShareable id shareable).Unlisted where
  orderly := unlisted.orderly.modifyNode id _
  unowned {other} unowned := by
    have bound := occurrences_setShareable_le arena id shareable other
    rw [Arena.setShareable, isUnowned_modifyNode] at unowned
    rw [unlisted.unowned unowned] at bound
    exact Nat.le_zero.mp bound
  unissued {other} new := by
    have bound := occurrences_setShareable_le arena id shareable other
    rw [unlisted.unissued fun issued => new (issued_updateLive id (by simp) issued)] at bound
    exact Nat.le_zero.mp bound

end Unlisted

/-! ## A node that is not shareable stands in one place -/

structure Exclusive (arena : Arena) (id : NodeId) : Prop where
  unlisted : arena.Unlisted
  issued : arena.Issued id
  flagged : ∀ {node}, arena.node? id = some node → node.shareable = false
  once : arena.occurrences id ≤ 1

namespace Exclusive

/-- A link is accepted only while the node has no owner, and then it stands in no list. -/
theorem admits (exclusive : before.Exclusive id) (admits : before.Admits after entered) :
    after.Exclusive id where
  unlisted := exclusive.unlisted.admits admits
  issued := admits.tidies.issued exclusive.issued
  flagged found := by
    rcases admits.relists with ⟨_, relists⟩
    rcases relists.node found with ⟨earlier, known, same, -⟩
    rw [same]
    exact (exclusive.flagged known :)
  once := by
    have bound := admits.occurrences id
    split at bound
    · rename_i enters
      have linkable := admits.linkable enters
      rcases contains_iff.mp (contains_of_canLink linkable) with ⟨node, owners, found⟩
      have flagged : node.shareable = false :=
        exclusive.flagged (by rw [node?, found, Option.map_some])
      simp only [canLink, found, flagged, Bool.or_false, beq_iff_eq] at linkable
      subst linkable
      rw [exclusive.unlisted.unowned (isUnowned_iff.mpr ⟨node, found⟩)] at bound
      exact bound
    · exact bound.trans exclusive.once

theorem alloc {node : Node} (exclusive : arena.Exclusive id)
    (single : arena.contains id = true →
      node.childArray.count id ≤ if arena.isUnowned id then 1 else 0) :
    (arena.alloc node).2.Exclusive id where
  unlisted := exclusive.unlisted.alloc node
  issued := (follows_alloc exclusive.unlisted.orderly.wellFormed node).issued exclusive.issued
  flagged {content} found := by
    have orderly := exclusive.unlisted.orderly
    have placed := placed_place ((Tidies.adopt arena node).orderly orderly).wellFormed
      (arena.adopt node).1
    have old : id ≠ (arena.alloc node).1 := by
      rintro rfl
      exact not_issued_alloc orderly.wellFormed node exclusive.issued
    have adopted : (arena.adopt node).2.node? id = some content := by
      rw [node?, ← placed.live?_other old]
      exact found
    rcases (Relists.adopt arena node none).node adopted with ⟨earlier, known, same, -⟩
    rw [same]
    exact (exclusive.flagged known :)
  once := by
    have bound := occurrences_alloc_le exclusive.unlisted.orderly node id
    have once := exclusive.once
    cases live : arena.contains id with
    | false =>
      have absent : id ∉ node.childArray.filter arena.contains := by simp [live]
      rw [Array.count_eq_zero.mpr absent] at bound
      omega
    | true =>
      have brought := single live
      have fewer : (node.childArray.filter arena.contains).count id ≤ node.childArray.count id := by
        rw [Array.count_filter live]
      split at brought
      · rename_i unowned
        rw [exclusive.unlisted.unowned unowned] at bound
        omega
      · omega

theorem setShareable (exclusive : arena.Exclusive id) {other : NodeId} {shareable : Bool}
    (kept : other = id → shareable = false) :
    (arena.setShareable other shareable).Exclusive id where
  unlisted := exclusive.unlisted.setShareable other shareable
  issued := issued_updateLive other (by simp) exclusive.issued
  flagged {node} found := by
    rw [node?, Arena.setShareable, live?_modifyNode] at found
    split at found
    · rename_i here
      rw [Option.map_map] at found
      rcases Option.map_eq_some_iff.mp found with ⟨content, -, rfl⟩
      exact kept here.symm
    · exact exclusive.flagged found
  once := (occurrences_setShareable_le arena other shareable id).trans exclusive.once

theorem flag (unlisted : arena.Unlisted) (unowned : arena.isUnowned id = true) :
    (arena.setShareable id false).Exclusive id where
  unlisted := unlisted.setShareable id false
  issued := by
    rcases isUnowned_iff.mp unowned with ⟨node, found⟩
    exact issued_updateLive id (by simp) (issued_of_live found)
  flagged {node} found := by
    rw [node?, Arena.setShareable, live?_modifyNode, if_pos rfl, Option.map_map] at found
    rcases Option.map_eq_some_iff.mp found with ⟨content, -, rfl⟩
    rfl
  once := by
    have bound := occurrences_setShareable_le arena id false id
    rw [unlisted.unowned unowned] at bound
    omega

end Exclusive

end Arena

/-! ## Runs -/

namespace Sharing

open Arena (Exclusive Unlisted)

inductive Step where
  | perform (operation : Operation)
  | setShareable (id : NodeId) (shareable : Bool)

def apply (arena : Arena) : Step → Arena
  | .perform operation => arena.perform operation
  | .setShareable id shareable => arena.setShareable id shareable

def run (arena : Arena) (steps : List Step) : Arena :=
  steps.foldl apply arena

/-- A node that is stored brings the id of a live node along only as often as it could be linked if
it is not shareable: once, while it has no owner. -/
def Spares (id : NodeId) (arena : Arena) : Step → Prop
  | .perform (.alloc node) => arena.contains id = true →
    node.childArray.count id ≤ if arena.isUnowned id then 1 else 0
  | _ => True

/-- Each node that is stored in a row of steps spares the id when its turn comes. -/
def SparesAll (id : NodeId) : Arena → List Step → Prop
  | _, [] => True
  | arena, step :: steps => Spares id arena step ∧ SparesAll id (apply arena step) steps

variable {arena : Arena} {id : NodeId} {steps : List Step}

theorem unlisted_apply (unlisted : arena.Unlisted) (step : Step) : (apply arena step).Unlisted := by
  cases step with
  | setShareable other shareable => exact unlisted.setShareable other shareable
  | perform operation =>
    by_cases stores : ∃ node, operation = .alloc node
    · rcases stores with ⟨node, rfl⟩
      exact unlisted.alloc node
    · rcases Arena.Admits.perform arena (not_exists.mp stores) with ⟨entered, admits⟩
      exact unlisted.admits admits

theorem unlisted_run (unlisted : arena.Unlisted) (steps : List Step) :
    (run arena steps).Unlisted := by
  induction steps generalizing arena with
  | nil => exact unlisted
  | cons step steps induction => exact induction (unlisted_apply unlisted step)

theorem exclusive_apply (exclusive : arena.Exclusive id) {step : Step}
    (left : step ≠ .setShareable id true) (spares : Spares id arena step) :
    (apply arena step).Exclusive id := by
  cases step with
  | setShareable other shareable =>
    refine exclusive.setShareable fun here => ?_
    rw [here] at left
    cases shareable with
    | false => rfl
    | true => exact absurd rfl left
  | perform operation =>
    by_cases stores : ∃ node, operation = .alloc node
    · rcases stores with ⟨node, rfl⟩
      exact exclusive.alloc spares
    · rcases Arena.Admits.perform arena (not_exists.mp stores) with ⟨entered, admits⟩
      exact exclusive.admits admits

theorem exclusive_run (exclusive : arena.Exclusive id) (left : Step.setShareable id true ∉ steps)
    (spares : SparesAll id arena steps) : (run arena steps).Exclusive id := by
  induction steps generalizing arena with
  | nil => exact exclusive
  | cons step steps induction =>
    rcases not_or.mp (List.mem_cons.not.mp left) with ⟨first, rest⟩
    exact induction (exclusive_apply exclusive (Ne.symm first) spares.1) rest spares.2

/-- Whatever was done before, a node that is said not to be shareable while nobody owns it stands in
one place at most from then on, as long as that is not taken back and no node that is stored brings
it along when it could not be linked. -/
theorem occurs_once {earlier later : List Step}
    (unowned : (run .empty earlier).isUnowned id = true)
    (left : Step.setShareable id true ∉ later)
    (spares : SparesAll id ((run .empty earlier).setShareable id false) later) :
    (run ((run .empty earlier).setShareable id false) later).occurrences id ≤ 1 :=
  (exclusive_run (.flag (unlisted_run Arena.unlisted_empty earlier) unowned) left spares).once

/-- Two lists and a node that is not shareable. The first list takes the node, the second one asks
for it in vain and is stored once more as a copy, and then the node moves on to the copy. -/
def moved : List Step :=
  [.perform (.pushChild ⟨0, 0⟩ ⟨2, 0⟩), .perform (.pushChild ⟨1, 0⟩ ⟨2, 0⟩),
    .perform (.alloc (.ofKind "second" .list)), .perform (.retain ⟨2, 0⟩),
    .perform (.clearChildren ⟨0, 0⟩), .perform (.pushChild ⟨3, 0⟩ ⟨2, 0⟩)]

def unlinked : List Step :=
  [.perform (.alloc (.ofKind "first" .list)), .perform (.alloc (.ofKind "second" .list)),
    .perform (.alloc (.ofKind "single" .base))]

theorem occurs_once_moved :
    (run ((run .empty unlinked).setShareable ⟨2, 0⟩ false) moved).occurrences ⟨2, 0⟩ ≤ 1 :=
  occurs_once (by decide +kernel) (by simp [moved]) (by simp [moved, SparesAll, Spares, Node.ofKind,
    Node.ofType, Node.childArray, Kind.isListLike])

/-- A copy of a list that holds a node brings the node along and becomes its second parent, though
it is not shareable. -/
theorem occurs_twice_copied :
    ∃ copy, (run ((run .empty unlinked).setShareable ⟨2, 0⟩ false)
        [.perform (.pushChild ⟨0, 0⟩ ⟨2, 0⟩)]).node? ⟨0, 0⟩ = some copy ∧
      (run .empty unlinked).isUnowned ⟨2, 0⟩ = true ∧
      (run ((run .empty unlinked).setShareable ⟨2, 0⟩ false)
        [.perform (.pushChild ⟨0, 0⟩ ⟨2, 0⟩), .perform (.alloc copy)]).occurrences ⟨2, 0⟩ = 2 := by
  refine ⟨{ Node.ofKind "first" .list with children := some #[⟨2, 0⟩] }, ?_, ?_, ?_⟩ <;>
    decide +kernel

end Sharing
end RecordGraph
