import RecordGraph.Proofs.Arena.Counts

/-!
# Cells and slots

The slots of an arena give the cells that stand for them. An operation on those cells leads to cells
that stand for slots again, so a cell has a node just if it is live, although nothing in a cell ties
one to the other. The slots are those that the operation on the arena leads to, unless a count came
to the last one there is.
-/

namespace RecordGraph

def Slot.cell : Slot → Cell
  | ⟨generation, .live node owners⟩ => ⟨generation, owners, .live, some node⟩
  | ⟨generation, .dying node⟩ => ⟨generation, 0, .dying, some node⟩
  | ⟨generation, .free⟩ => ⟨generation, 0, .free, none⟩

theorem Slot.generation_cell (slot : Slot) : slot.cell.generation = slot.generation := by
  rcases slot with ⟨generation, ⟨node, owners⟩ | node | _⟩ <;> rfl

theorem Slot.map_modify {slots : Array Slot} {index : Nat} {onCell : Cell → Cell}
    {onSlot : Slot → Slot}
    (same : ∀ slot, slots[index]? = some slot → onCell slot.cell = (onSlot slot).cell) :
    (slots.map cell).modify index onCell = (slots.modify index onSlot).map cell := by
  apply Array.ext_getElem?
  intro asked
  rw [Array.getElem?_modify, Array.getElem?_map, Array.getElem?_map, Array.getElem?_modify]
  split
  · rename_i here
    subst here
    cases found : slots[index]? with
    | none => rfl
    | some slot => simp [same slot found]
  · rfl

namespace Arena

def cells (arena : Arena) : Cells :=
  ⟨arena.slots.map Slot.cell, arena.free, arena.live, arena.names⟩

variable {arena : Arena} {id : NodeId}

/-! ## Reading -/

theorem cell?_cells (arena : Arena) (id : NodeId) :
    arena.cells.cell? id =
      (arena.live? id).map fun content => ⟨id.generation, content.2, .live, some content.1⟩ := by
  cases found : arena.slots[id.index]? with
  | none => simp [Cells.cell?, cells, live?, found]
  | some slot =>
    rcases slot with ⟨generation, ⟨node, owners⟩ | node | _⟩
    · by_cases same : generation = id.generation <;>
        simp [Cells.cell?, Cells.isLive, cells, live?, Slot.live?, Slot.cell, found, same]
    · simp [Cells.cell?, Cells.isLive, cells, live?, Slot.live?, Slot.cell, found]
    · simp [Cells.cell?, Cells.isLive, cells, live?, Slot.live?, Slot.cell, found]

@[simp] theorem contains_cells (arena : Arena) (id : NodeId) :
    arena.cells.contains id = arena.contains id := by
  rw [Cells.contains, cell?_cells, Option.isSome_map, contains]

@[simp] theorem children_cells (arena : Arena) (id : NodeId) :
    arena.cells.children id = arena.children id := by
  rw [Cells.children, Cells.node?, cell?_cells, children, node?]
  cases arena.live? id <;> rfl

@[simp] theorem canLink_cells (arena : Arena) (child : NodeId) :
    arena.cells.canLink child = arena.canLink child := by
  rw [Cells.canLink, cell?_cells, canLink]
  cases arena.live? child with
  | none => rfl
  | some content => simp

/-! ## One cell -/

theorem update_cells {change : Cell → Cell} {content : Node → Nat → SlotState}
    (same : ∀ node owners, arena.live? id = some (node, owners) →
      change ⟨id.generation, owners, .live, some node⟩ =
        Slot.cell ⟨id.generation, content node owners⟩) :
    arena.cells.update id change = (arena.updateLive id content).cells := by
  simp only [live?_eq_some_iff] at same
  rcases arena with ⟨slots, free, live, names⟩
  simp only [Cells.update, cells, updateLive, Cells.mk.injEq, and_true]
  refine Slot.map_modify fun slot found => ?_
  rcases slot with ⟨generation, ⟨node, owners⟩ | node | _⟩
  · by_cases current : generation = id.generation
    · subst current
      simp [Cells.isLive, Slot.cell, Slot.updateLive, same node owners found]
    · simp [Cells.isLive, Slot.cell, Slot.updateLive, current]
  · simp [Cells.isLive, Slot.cell, Slot.updateLive]
  · simp [Cells.isLive, Slot.cell, Slot.updateLive]

theorem modifyNode_cells (arena : Arena) (id : NodeId) (change : Node → Node) :
    arena.cells.modifyNode id change = (arena.modifyNode id change).cells :=
  update_cells fun _ _ _ => rfl

theorem drop_cells (arena : Arena) (id : NodeId) :
    arena.cells.drop id = (arena.countOwners id (· - 1)).cells :=
  update_cells fun _ _ _ => rfl

theorem condemn_cells {node : Node} (found : arena.live? id = some (node, 0)) :
    arena.cells.condemn id = (arena.condemn id).cells :=
  update_cells fun other owners same => by
    rw [found] at same
    cases same
    rfl

theorem setAttr_cells (arena : Arena) (id : NodeId) (name : String) (value : Value) :
    arena.cells.setAttr id name value = (arena.setAttr id name value).cells := by
  have sameNames : arena.cells.names = arena.names := rfl
  rw [Cells.setAttr, setAttr, contains_cells, sameNames]
  split
  · cases arena.names.intern name with
    | error exhausted => rfl
    | ok result => exact modifyNode_cells { arena with names := result.2 } id _
  · rfl

/-! ## Teardown -/

theorem live?_drop {node : Node} {owners : Nat} (found : arena.live? id = some (node, owners)) :
    (arena.countOwners id (· - 1)).live? id = some (node, owners - 1) := by
  rw [countOwners_of_live found, live?_putSlot_same (live?_eq_some_iff.mp found)]
  simp [Slot.live?]

theorem condemn_drop {node : Node} {owners : Nat} (found : arena.live? id = some (node, owners)) :
    (arena.countOwners id (· - 1)).condemn id = arena.condemn id := by
  rw [condemn, updateLive_of_live (live?_drop found), countOwners_of_live found, putSlot_putSlot,
    condemn, updateLive_of_live found]

theorem vacate_cells (arena : Arena) (id : NodeId) :
    arena.cells.vacate id.index = (arena.vacate id).cells := by
  rcases arena with ⟨slots, free, live, names⟩
  simp only [Cells.vacate, cells, vacate, Cells.mk.injEq, and_true]
  refine Slot.map_modify fun slot _ => ?_
  rw [Slot.generation_cell]
  rfl

theorem releaseChild_cells (arena : Arena) (work : List NodeId) (child : NodeId) :
    Cells.releaseChild (arena.cells, work) child =
      ((releaseChild (arena, work) child).1.cells, (releaseChild (arena, work) child).2) := by
  cases found : arena.live? child with
  | none => simp [Cells.releaseChild, releaseChild, cell?_cells, owners?, found]
  | some content =>
    rcases content with ⟨node, owners⟩
    simp only [Cells.releaseChild, releaseChild, cell?_cells, owners?, found, Option.map_some]
    by_cases last : owners ≤ 1
    · have none : owners - 1 = 0 := by omega
      have unowned := live?_drop found
      rw [none] at unowned
      rw [if_pos last, if_pos none, drop_cells, condemn_cells unowned, condemn_drop found]
    · rw [if_neg last, if_neg (by omega), drop_cells]

theorem releaseChildren_cells (children : List NodeId) (arena : Arena) (work : List NodeId) :
    children.foldl Cells.releaseChild (arena.cells, work) =
      ((children.foldl releaseChild (arena, work)).1.cells,
        (children.foldl releaseChild (arena, work)).2) := by
  induction children generalizing arena work with
  | nil => rfl
  | cons child children induction =>
    rw [List.foldl_cons, List.foldl_cons, releaseChild_cells]
    exact induction _ _

theorem teardown_cells (rounds : Nat) (work : List NodeId) (arena : Arena) :
    Cells.teardown rounds work arena.cells = (teardown rounds work arena).cells := by
  induction rounds generalizing work arena with
  | zero => rfl
  | succ rounds induction =>
    cases work with
    | nil => rfl
    | cons id work =>
      have there : arena.cells.cells[id.index]? = arena.slots[id.index]?.map Slot.cell :=
        Array.getElem?_map ..
      rw [Cells.teardown, there, teardown, dyingChildren?]
      cases found : arena.slots[id.index]? with
      | none => exact induction work arena
      | some slot =>
        rcases slot with ⟨generation, ⟨node, owners⟩ | node | _⟩
        · simpa [Slot.cell] using induction work arena
        · by_cases current : generation = id.generation
          · simp only [Option.map_some, Slot.cell, current, and_self, ↓reduceIte, Option.getD_some,
              vacate_cells, ← Array.foldl_toList, releaseChildren_cells]
            exact induction _ _
          · simpa [Slot.cell, current] using induction work arena
        · simpa [Slot.cell] using induction work arena

theorem destroy_cells {node : Node} (found : arena.live? id = some (node, 0)) :
    arena.cells.destroy id = (arena.destroy id).cells := by
  have size : arena.cells.cells.size = arena.slots.size := Array.size_map
  rw [Cells.destroy, condemn_cells found, size, teardown_cells, destroy]

theorem destroy_drop {node : Node} {owners : Nat} (found : arena.live? id = some (node, owners)) :
    (arena.countOwners id (· - 1)).destroy id = arena.destroy id := by
  have size : (arena.countOwners id (· - 1)).slots.size = arena.slots.size := by
    rw [countOwners_of_live found, putSlot_size]
  rw [destroy, size, condemn_drop found, destroy]

theorem release_cells (arena : Arena) (id : NodeId) :
    arena.cells.release id = (arena.release id).cells := by
  cases found : arena.live? id with
  | none => simp [Cells.release, release, cell?_cells, owners?, found]
  | some content =>
    rcases content with ⟨node, owners⟩
    simp only [Cells.release, release, cell?_cells, owners?, found, Option.map_some]
    by_cases last : owners ≤ 1
    · have none : owners - 1 = 0 := by omega
      have unowned := live?_drop found
      rw [none] at unowned
      rw [if_pos last, if_pos none, drop_cells, destroy_cells unowned, destroy_drop found]
    · rw [if_neg last, if_neg (by omega), drop_cells]

theorem releaseAll_cells (nodes : List NodeId) (arena : Arena) :
    nodes.foldl Cells.release arena.cells = (nodes.foldl release arena).cells := by
  induction nodes generalizing arena with
  | nil => rfl
  | cons node nodes induction =>
    rw [List.foldl_cons, List.foldl_cons, release_cells]
    exact induction _

theorem releaseIfUnowned_cells (arena : Arena) (id : NodeId) :
    arena.cells.releaseIfUnowned id = (arena.releaseIfUnowned id).cells := by
  cases found : arena.live? id with
  | none => simp [Cells.releaseIfUnowned, releaseIfUnowned, isUnowned, cell?_cells, owners?, found]
  | some content =>
    rcases content with ⟨node, owners⟩
    simp only [Cells.releaseIfUnowned, releaseIfUnowned, isUnowned, cell?_cells, owners?, found,
      Option.map_some, Option.any_some]
    by_cases unowned : owners = 0
    · subst unowned
      simpa using destroy_cells found
    · simp [unowned]

/-! ## Another owner -/

def hold (arena : Arena) (id : NodeId) : Arena :=
  arena.countOwners id fun owners => min (owners + 1) Cells.lastCount

theorem retain_cells (arena : Arena) (id : NodeId) :
    arena.cells.retain id = (arena.hold id).cells :=
  update_cells fun _ _ _ => rfl

theorem Clearing.hold {work : List NodeId} (clearing : arena.Clearing work) (id : NodeId) :
    (arena.hold id).Clearing work :=
  clearing.updateLive id fun _ _ => ⟨_, _, rfl⟩

theorem contains_hold (arena : Arena) (id other : NodeId) :
    (arena.hold id).contains other = arena.contains other := by
  cases found : arena.live? id with
  | none => rw [hold, countOwners, updateLive_of_stale found]
  | some content =>
    rw [hold, countOwners_of_live found]
    by_cases same : other = id
    · subst same
      rw [contains, live?_putSlot_same (live?_eq_some_iff.mp found), contains, found]
      simp [Slot.live?]
    · rw [contains, live?_putSlot_other (live?_eq_some_iff.mp found) same, contains]

theorem hold_eq_retain (few : arena.ownerCount id < Cells.lastCount) :
    arena.hold id = arena.retain id := by
  cases found : arena.live? id with
  | none => rw [hold, countOwners, updateLive_of_stale found, retain_of_stale found]
  | some content =>
    rw [ownerCount_of_live found] at few
    rw [hold, countOwners_of_live found, Nat.min_eq_left few, retain_of_live found]

theorem ownerCount_le_retainAll (nodes : List NodeId) (arena : Arena) (id : NodeId) :
    arena.ownerCount id ≤ (nodes.foldl retain arena).ownerCount id := by
  rw [ownerCount_retainAll]
  exact Nat.le_add_right _ _

theorem holdAll_eq_retainAll {nodes : List NodeId} (ample : (nodes.foldl retain arena).Ample) :
    nodes.foldl hold arena = nodes.foldl retain arena := by
  induction nodes generalizing arena with
  | nil => rfl
  | cons node nodes induction =>
    have counted := ownerCount_le_retainAll (node :: nodes) arena node
    rw [List.foldl_cons, hold_eq_retain (Nat.lt_of_le_of_lt counted (ample node))]
    exact induction ample

theorem Clearing.holdAll {work : List NodeId} (clearing : arena.Clearing work)
    (nodes : List NodeId) : (nodes.foldl Arena.hold arena).Clearing work := by
  induction nodes generalizing arena with
  | nil => exact clearing
  | cons node nodes induction => exact induction (clearing.hold node)

/-! ## New nodes -/

theorem adoptChildren_cells (children : List NodeId) (kept : Array NodeId) (arena : Arena) :
    children.foldl Cells.adoptChild (kept, arena.cells) =
      (kept ++ (children.filter arena.contains).toArray,
        ((children.filter arena.contains).foldl hold arena).cells) := by
  induction children generalizing kept arena with
  | nil => simp
  | cons child children induction =>
    by_cases live : arena.contains child = true
    · have same : (arena.hold child).contains = arena.contains := by
        ext other
        rw [contains_hold]
      simp only [List.foldl_cons, Cells.adoptChild, contains_cells, live, ↓reduceIte, retain_cells,
        List.filter_cons_of_pos]
      rw [induction, same]
      simp
    · simp only [List.foldl_cons, Cells.adoptChild, contains_cells, live, Bool.false_eq_true,
        ↓reduceIte, not_false_eq_true, List.filter_cons_of_neg]
      exact induction kept arena

theorem adopt_cells (arena : Arena) (node : Node) :
    arena.cells.adopt node = ((arena.adopt node).1,
      ((node.childArray.filter arena.contains).toList.foldl hold arena).cells) := by
  unfold Cells.adopt adopt Node.childArray
  cases node.children with
  | none => rfl
  | some children =>
    have kept : #[] ++ (children.toList.filter arena.contains).toArray =
        children.filter arena.contains := by
      rw [Array.empty_append, ← Array.toList_filter, Array.toArray_toList]
    simp only [← Array.foldl_toList, adoptChildren_cells, kept, Option.getD_some,
      Array.toList_filter]

theorem place_cells (arena : Arena) (node : Node) :
    arena.cells.place node = ((arena.place node).1, (arena.place node).2.cells) := by
  rcases arena with ⟨slots, _ | ⟨index, free⟩, live, names⟩
  · simp [Cells.place, place, cells, Slot.cell]
  · have sameGeneration : (slots.map Slot.cell)[index]?.map (·.generation) =
        slots[index]?.map (·.generation) := by
      rw [Array.getElem?_map, Option.map_map]
      exact congrArg (Option.map · _) (funext Slot.generation_cell)
    have sameSlots : (slots.map Slot.cell).modify index
          (fun cell => ⟨cell.generation, 0, .live, some node⟩) =
        (slots.modify index fun slot => { slot with state := .live node 0 }).map Slot.cell := by
      refine Slot.map_modify fun slot _ => ?_
      rw [Slot.generation_cell]
      rfl
    simp only [Cells.place, place, cells, sameGeneration, sameSlots]

theorem alloc_cells (orderly : arena.Orderly) {node : Node} (ample : (arena.alloc node).2.Ample) :
    arena.cells.alloc node = ((arena.alloc node).1, (arena.alloc node).2.cells) := by
  have adopted : (arena.adopt node).2.Ample := fun id => by
    rw [← ownerCount_alloc orderly]
    exact ample id
  rw [adopt_eq_retainAll] at adopted
  rw [Cells.alloc, adopt_cells, holdAll_eq_retainAll adopted, ← adopt_eq_retainAll]
  exact place_cells _ _

/-! ## Operations -/

structure Leads (arena : Arena) (cells : Cells) (target : Arena) : Prop where
  stands : ∃ later : Arena, cells = later.cells ∧ later.Orderly
  reaches : arena.Ample → target.Ample → cells = target.cells

theorem Leads.of_eq {cells : Cells} {target : Arena} (same : cells = target.cells)
    (orderly : target.Orderly) : arena.Leads cells target :=
  ⟨⟨target, same, orderly⟩, fun _ _ => same⟩

section

variable (orderly : arena.Orderly)

include orderly

theorem leads_alloc (node : Node) : arena.Leads (arena.cells.alloc node).2 (arena.alloc node).2 where
  stands := by
    rw [Cells.alloc, adopt_cells]
    exact ⟨_, congrArg Prod.snd (place_cells _ _), (orderly.holdAll _).place _⟩
  reaches _ ample := congrArg Prod.snd (alloc_cells orderly ample)

theorem leads_retain (id : NodeId) : arena.Leads (arena.cells.retain id) (arena.retain id) where
  stands := ⟨_, retain_cells arena id, orderly.hold id⟩
  reaches ample _ := by rw [retain_cells, hold_eq_retain (ample id)]

theorem leads_link (parent child : NodeId) (change : Node → Node) :
    arena.Leads ((arena.cells.retain child).modifyNode parent change)
      ((arena.retain child).modifyNode parent change) where
  stands := ⟨_, by rw [retain_cells, modifyNode_cells], (orderly.hold child).modifyNode parent change⟩
  reaches ample _ := by rw [retain_cells, hold_eq_retain (ample child), modifyNode_cells]

theorem leads_pushChild (parent child : NodeId) :
    arena.Leads (arena.cells.pushChild parent child).2 (arena.pushChild parent child).2 := by
  rw [Cells.pushChild, contains_cells, canLink_cells, pushChild]
  split
  · exact leads_link orderly parent child _
  · exact .of_eq rfl orderly

theorem leads_insertChild (parent : NodeId) (index : Nat) (child : NodeId) :
    arena.Leads (arena.cells.insertChild parent index child).2
      (arena.insertChild parent index child).2 := by
  rw [Cells.insertChild, contains_cells, canLink_cells, insertChild]
  split
  · exact leads_link orderly parent child _
  · exact .of_eq rfl orderly

theorem leads_setChild (parent : NodeId) (index : Nat) (child : NodeId) :
    arena.Leads (arena.cells.setChild parent index child).2
      (arena.setChild parent index child).2 := by
  rw [Cells.setChild, Cells.child?, contains_cells, children_cells, canLink_cells, setChild, child?,
    childCount]
  split
  · exact .of_eq rfl orderly
  cases (arena.children parent)[index]? with
  | none =>
    dsimp only
    split
    · exact leads_pushChild orderly parent child
    · exact .of_eq rfl orderly
  | some old =>
    dsimp only
    split
    · exact .of_eq rfl orderly
    split
    · constructor
      · exact ⟨_, by rw [retain_cells, modifyNode_cells, release_cells],
          ((orderly.hold child).modifyNode parent _).release old⟩
      · intro ample _
        rw [retain_cells, hold_eq_retain (ample child), modifyNode_cells, release_cells]
    · exact .of_eq rfl orderly

theorem leads_removeChild (parent : NodeId) (index : Nat) :
    arena.Leads (arena.cells.removeChild parent index).2 (arena.removeChild parent index).2 := by
  rw [Cells.removeChild, Cells.child?, children_cells, removeChild, child?]
  cases (arena.children parent)[index]? with
  | none => exact .of_eq rfl orderly
  | some old =>
    refine .of_eq ?_ ((orderly.modifyNode parent _).release old)
    simp only [modifyNode_cells, release_cells]

theorem leads_clearChildren (parent : NodeId) :
    arena.Leads (arena.cells.clearChildren parent) (arena.clearChildren parent) := by
  refine .of_eq ?_ ((Tidies.clearChildren arena parent).orderly orderly)
  simp only [Cells.clearChildren, clearChildren, children_cells, modifyNode_cells,
    ← Array.foldl_toList, releaseAll_cells]

end

end Arena

/-! ## Histories of cells -/

namespace Cells

def perform (cells : Cells) : Operation → Cells
  | .alloc node => (cells.alloc node).2
  | .retain id => cells.retain id
  | .release id => cells.release id
  | .releaseIfUnowned id => cells.releaseIfUnowned id
  | .ensureChildren id => cells.modifyNode id (·.ensureChildren)
  | .pushChild parent child => (cells.pushChild parent child).2
  | .insertChild parent index child => (cells.insertChild parent index child).2
  | .setChild parent index child => (cells.setChild parent index child).2
  | .removeChild parent index => (cells.removeChild parent index).2
  | .clearChildren parent => cells.clearChildren parent

/-- No cell is dying, a cell has a node just if it is live, the free list holds every free cell
once, and the live cells are counted. -/
structure Consistent (cells : Cells) : Prop where
  not_dying : ∀ cell ∈ cells.cells, cell.state ≠ .dying
  node_iff : ∀ cell ∈ cells.cells, cell.node.isSome = true ↔ cell.state = .live
  free_nodup : cells.free.Nodup
  mem_free : ∀ index, index ∈ cells.free ↔
    ∃ cell, cells.cells[index]? = some cell ∧ cell.state = .free
  live_eq : cells.live = cells.cells.countP (·.state = .live)

end Cells

theorem Arena.leads_perform {arena : Arena} (orderly : arena.Orderly) (operation : Operation) :
    arena.Leads (arena.cells.perform operation) (arena.perform operation) := by
  cases operation with
  | alloc node => exact leads_alloc orderly node
  | retain id => exact leads_retain orderly id
  | release id => exact .of_eq (release_cells arena id) (orderly.release id)
  | releaseIfUnowned id =>
    exact .of_eq (releaseIfUnowned_cells arena id) (orderly.releaseIfUnowned id)
  | ensureChildren id => exact .of_eq (modifyNode_cells arena id _) (orderly.modifyNode id _)
  | pushChild parent child => exact leads_pushChild orderly parent child
  | insertChild parent index child => exact leads_insertChild orderly parent index child
  | setChild parent index child => exact leads_setChild orderly parent index child
  | removeChild parent index => exact leads_removeChild orderly parent index
  | clearChildren parent => exact leads_clearChildren orderly parent

theorem Arena.Clearing.cell_cases {arena : Arena} (orderly : arena.Orderly) {cell : Cell}
    (member : cell ∈ arena.cells.cells) :
    (∃ generation owners node, cell = ⟨generation, owners, .live, some node⟩) ∨
      ∃ generation, cell = ⟨generation, 0, .free, none⟩ := by
  rcases Array.mem_map.mp member with ⟨⟨generation, content⟩, present, rfl⟩
  rcases Array.mem_iff_getElem?.mp present with ⟨index, found⟩
  rcases content with ⟨node, owners⟩ | node | _
  · exact .inl ⟨generation, owners, node, rfl⟩
  · exact absurd ⟨node, found⟩ (orderly.not_dying ⟨index, generation⟩)
  · exact .inr ⟨generation, rfl⟩

theorem Arena.Clearing.consistent_cells {arena : Arena} (orderly : arena.Orderly) :
    arena.cells.Consistent where
  not_dying cell member := by
    rcases orderly.cell_cases member with ⟨generation, owners, node, rfl⟩ | ⟨generation, rfl⟩
    · exact nofun
    · exact nofun
  node_iff cell member := by
    rcases orderly.cell_cases member with ⟨generation, owners, node, rfl⟩ | ⟨generation, rfl⟩
    · simp
    · simp
  free_nodup := orderly.wellFormed.free_nodup
  mem_free index := by
    have there : arena.cells.cells[index]? = arena.slots[index]?.map Slot.cell :=
      Array.getElem?_map ..
    rw [there]
    refine (orderly.wellFormed.mem_free index).trans ?_
    cases arena.slots[index]? with
    | none => simp
    | some slot => rcases slot with ⟨generation, ⟨node, owners⟩ | node | _⟩ <;> simp [Slot.cell]
  live_eq := by
    have counted := orderly.consistent.live_eq
    have same : (fun slot : Slot => decide (slot.cell.state = .live)) = Slot.isLive := by
      ext ⟨generation, ⟨node, owners⟩ | node | _⟩ <;> rfl
    change arena.live = (arena.slots.map Slot.cell).countP _
    rw [Array.countP_map, counted]
    exact congrArg (arena.slots.countP ·) same.symm

structure CellHistory where
  cells : Cells
  given : List NodeId

namespace CellHistory

def initial : CellHistory := ⟨.empty, []⟩

def apply (history : CellHistory) : Action → CellHistory
  | .perform (.alloc node) =>
    ⟨(history.cells.alloc node).2, (history.cells.alloc node).1 :: history.given⟩
  | .perform operation => { history with cells := history.cells.perform operation }
  | .setAttr id name value => { history with cells := history.cells.setAttr id name value }
  | .edit id change => { history with cells := history.cells.modifyNode id change }
  | .editNames change =>
    { history with cells := { history.cells with names := change history.cells.names } }

def run (history : CellHistory) (actions : List Action) : CellHistory :=
  actions.foldl apply history

end CellHistory

namespace History

def onCells (history : History) : CellHistory := ⟨history.arena.cells, history.given⟩

theorem leads_apply {history : History} (orderly : history.arena.Orderly) (action : Action) :
    history.arena.Leads (history.onCells.apply action).cells (history.apply action).arena := by
  cases action with
  | perform operation =>
    have leads := Arena.leads_perform orderly operation
    cases operation with
    | _ => exact leads
  | setAttr id name value =>
    exact .of_eq (Arena.setAttr_cells history.arena id name value)
      ((Arena.Tidies.setAttr history.arena id name value).orderly orderly)
  | edit id change =>
    exact .of_eq (Arena.modifyNode_cells history.arena id change) (orderly.modifyNode id change)
  | editNames change => exact .of_eq rfl (orderly.names _)

theorem apply_onCells {history : History} (orderly : history.arena.Orderly) {action : Action}
    (ample : history.arena.Ample) (ampleLater : (history.apply action).arena.Ample) :
    history.onCells.apply action = (history.apply action).onCells := by
  have cells := (leads_apply orderly action).reaches ample ampleLater
  cases action with
  | perform operation =>
    cases operation with
    | alloc node =>
      have same := Arena.alloc_cells orderly ampleLater
      exact congrArg (fun made => CellHistory.mk made.2 (made.1 :: history.given)) same
    | _ => exact congrArg (CellHistory.mk · history.given) cells
  | _ => exact congrArg (CellHistory.mk · history.given) cells

theorem onCells_initial : initial.onCells = .initial := by
  simp only [onCells, initial, Arena.cells, Arena.empty, Array.map_empty, CellHistory.initial,
    Cells.empty]

theorem run_onCells {history : History} (faithful : history.Faithful) {actions : List Action}
    (ample : history.Ample actions) :
    history.onCells.run actions = (history.run actions).onCells := by
  induction actions generalizing history with
  | nil => rfl
  | cons action actions induction =>
    have step := apply_onCells faithful.orderly ample.1 ample.2.here
    change (history.onCells.apply action).run actions = _
    rw [step]
    exact induction (faithful.apply action) ample.2

end History

/-- After any actions the cells stand for slots in order, even if counts have come to the last
one. -/
theorem CellHistory.stands_run {history : CellHistory} {arena : Arena}
    (stands : history.cells = arena.cells) (orderly : arena.Orderly) (actions : List Action) :
    ∃ later : Arena, (history.run actions).cells = later.cells ∧ later.Orderly := by
  induction actions generalizing history arena with
  | nil => exact ⟨arena, stands, orderly⟩
  | cons action actions induction =>
    rcases history with ⟨cells, given⟩
    cases stands
    rcases (@History.leads_apply ⟨arena, given⟩ orderly action).stands with ⟨next, same, kept⟩
    exact induction same kept

/-- After any actions on an empty arena the slots and ids are in order. So are cells, which have a
state and a node apart. They are those that stand for the slots, with the same ids given out, as
long as no count comes to the last one. -/
theorem History.slots_in_order (actions : List Action) :
    (initial.run actions).Regular ∧ (CellHistory.initial.run actions).cells.Consistent ∧
      (initial.Ample actions →
        CellHistory.initial.run actions = (initial.run actions).onCells) := by
  rw [← onCells_initial]
  refine ⟨regular_run actions, ?_, fun ample => run_onCells faithful_initial ample⟩
  have start : initial.onCells.cells = Arena.empty.cells := rfl
  rcases CellHistory.stands_run start Arena.orderly_empty actions with ⟨later, same, orderly⟩
  rw [same]
  exact orderly.consistent_cells

end RecordGraph
