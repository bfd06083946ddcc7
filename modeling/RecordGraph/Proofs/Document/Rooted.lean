import RecordGraph.Document.Loading
import RecordGraph.Proofs.Allocation
import RecordGraph.Proofs.Arena.Acyclic
import RecordGraph.Proofs.Document.Trees

/-!
# Documents hang from their roots

In a tidy arena every node has an owner and there are no cycles. From parent to parent each node
leads to one that is held from outside, so if the root is the only one that is held, the live nodes
are the root and those below it. Whatever text is loaded below the root, the arena stays tidy.
-/

namespace RecordGraph

open RecordGraph.Arena (Settles Sheds)

namespace Arena

structure Tidy (arena : Arena) (holds : NodeId → Nat) : Prop where
  steady : arena.Steady [] holds
  acyclic : arena.Acyclic
  owned : ∀ id, arena.isUnowned id = false

namespace Tidy

variable {before after arena : Arena} {holds : NodeId → Nat}

theorem step (tidy : before.Tidy holds) (settles : Settles [] before after)
    (acyclic : after.Acyclic) : after.Tidy holds :=
  have settled := settles holds tidy.steady
  ⟨settled.1, acyclic, settled.2.owned tidy.owned⟩

theorem sheds (tidy : before.Tidy holds) (settles : Settles [] before after)
    (sheds : before.Sheds after) : after.Tidy holds :=
  tidy.step settles (tidy.acyclic.sheds sheds)

theorem ownerCount_pos (tidy : arena.Tidy holds) {id : NodeId} (live : arena.contains id = true) :
    0 < arena.ownerCount id := by
  rcases contains_iff.mp live with ⟨node, owners, found⟩
  rw [ownerCount_of_live found, Nat.pos_iff_ne_zero]
  rintro rfl
  have owned := tidy.owned id
  rw [isUnowned_iff.mpr ⟨node, found⟩] at owned
  cases owned

section

variable {root : NodeId} (tidy : arena.Tidy ([root].count ·))
include tidy

theorem ownerCount_eq (id : NodeId) :
    arena.ownerCount id = arena.occurrences id + [root].count id := by
  have count := tidy.steady.ownerCount_eq id
  rwa [List.count_nil, Nat.add_zero] at count

theorem contains_root : arena.contains root = true := by
  have count := tidy.ownerCount_eq root
  rw [List.count_cons_self] at count
  exact contains_of_ownerCount_pos (by omega)

theorem below_of_contains {id : NodeId} (live : arena.contains id = true) (other : id ≠ root) :
    arena.Below root id := by
  rcases tidy.acyclic with ⟨rank, rises⟩
  -- on the rank, which is lower at the parent
  induction height : rank id using Nat.strongRecOn generalizing id with
  | ind height induction =>
    subst height
    have count := tidy.ownerCount_eq id
    rw [List.count_cons_of_ne other.symm, List.count_nil, Nat.add_zero] at count
    rcases exists_parent (count ▸ tidy.ownerCount_pos live) with ⟨parent, member⟩
    by_cases top : parent = root
    · exact .child (top ▸ member)
    · exact .deeper (induction (rank parent) (rises parent id member)
        (contains_of_mem_children member) top rfl) member

theorem contains_iff_below (id : NodeId) :
    arena.contains id = true ↔ id = root ∨ arena.Below root id := by
  constructor
  · intro live
    by_cases same : id = root
    · exact .inl same
    · exact .inr (tidy.below_of_contains live same)
  · rintro (rfl | below)
    · exact tidy.contains_root
    · cases below with
      | child member => exact tidy.steady.child_live member
      | deeper _ member => exact tidy.steady.child_live member

theorem occurrences_root : arena.occurrences root = 0 := by
  by_contra listed
  rcases exists_parent (Nat.pos_of_ne_zero listed) with ⟨parent, member⟩
  rcases tidy.acyclic with ⟨rank, rises⟩
  have above := rises parent root member
  rcases (tidy.contains_iff_below parent).mp (contains_of_mem_children member) with rfl | below
  · exact Nat.lt_irrefl _ above
  · exact Nat.lt_asymm above (rank_lt_of_below rises below)

theorem ownerCount_root : arena.ownerCount root = 1 := by
  rw [tidy.ownerCount_eq, tidy.occurrences_root, List.count_cons_self, List.count_nil]

theorem ownerCount_other {id : NodeId} (other : id ≠ root) :
    arena.ownerCount id = arena.occurrences id := by
  rw [tidy.ownerCount_eq, List.count_cons_of_ne other.symm, List.count_nil, Nat.add_zero]

end
end Tidy
end Arena

/-! ## Loading -/

namespace Document

structure Stocked (holds : NodeId → Nat) (blocks : List NodeId) (arena : Arena) : Prop
    extends arena.Tidy holds where
  live : ∀ block ∈ blocks, arena.contains block = true

variable {holds : NodeId → Nat} {blocks : List NodeId} {before after arena : Arena}
  {registry : Registry}

theorem Stocked.sheds (stocked : Stocked holds blocks before) (settles : Settles [] before after)
    (sheds : before.Sheds after)
    (same : ∀ id, before.contains id = true → after.contains id = true) :
    Stocked holds blocks after where
  toTidy := stocked.toTidy.sheds settles sheds
  live block member := same block (stocked.live block member)

theorem Stocked.ensureChildren (stocked : Stocked holds blocks arena) (id : NodeId) :
    Stocked holds blocks (arena.ensureChildren id) :=
  stocked.sheds (.ensureChildren arena id) (Arena.sheds_ensureChildren arena id)
    fun other live => by rwa [Arena.ensureChildren, Arena.contains_modifyNode]

theorem Stocked.pushLeaf (stocked : Stocked holds blocks arena) {node : Node}
    (childless : node.childArray = #[]) {parent : NodeId} (member : parent ∈ blocks) :
    Stocked holds blocks ((arena.alloc node).2.pushChild parent (arena.alloc node).1).2 := by
  have placed := Arena.placed_alloc stocked.steady.wellFormed childless
  have settles := Settles.alloc arena node
  generalize (arena.alloc node).1 = leaf at placed settles ⊢
  generalize (arena.alloc node).2 = later at placed settles ⊢
  have live := stocked.live parent member
  have different : leaf ≠ parent := by
    rintro rfl
    exact placed.not_issued (Arena.issued_of_contains live)
  have acyclic := (stocked.acyclic.sheds (placed.sheds childless)).hangs
    (placed.loose childless stocked.steady) different (Arena.hangs_pushChild parent leaf)
  -- between the two steps the leaf has no owner
  have owned := (settles.andThen (.pushChild later parent leaf)).drop_owned
    (Arena.isUnowned_pushChild (placed.pushed live))
  refine ⟨stocked.toTidy.step owned acyclic, fun block inside => ?_⟩
  rw [Arena.contains_pushChild]
  exact placed.contains (stocked.live block inside)

theorem Stocked.build (stocked : Stocked holds blocks arena) (direct : registry.Direct)
    {request : BuildRequest} {parent : NodeId} (below : request.parent = some parent)
    (member : parent ∈ blocks) : Stocked holds blocks (registry.build arena request).2 := by
  rcases direct.build_below arena below with same | ⟨node, asks, same⟩
  · rw [same]
    exact stocked
  · rw [same]
    exact stocked.pushLeaf asks.childless member

def Load.opened (load : Load) : List NodeId :=
  load.root :: load.blocks

theorem Load.parent_mem_opened (load : Load) : load.parent ∈ load.opened := by
  rcases load with ⟨arena, root, _ | ⟨block, blocks⟩, latest, warnings⟩
  · exact List.mem_cons_self ..
  · exact List.mem_cons_of_mem _ (List.mem_cons_self ..)

theorem exists_warnings (load : Load) (line : Nat) (problem : Problem) (condition : Prop)
    [Decidable condition] :
    ∃ warnings, (if condition then load.warn line problem else load) = { load with warnings } := by
  split
  · exact ⟨_, rfl⟩
  · exact ⟨_, rfl⟩

def Record.request (record : Record) (attrs : AttrList) (parent : NodeId) : BuildRequest where
  name := record.name
  nodeType := none
  typeName := if record.typeName = "" then none else some record.typeName
  attrs := if attrs.isEmpty then none else some attrs
  parent := some parent

/-- Apart from warnings a record leads to a request for a node, once its names are interned. -/
theorem addRecord_eq (registry : Registry) (load : Load) (line : Nat) (record : Record) :
    ∃ warnings, load.addRecord registry line record =
      let interned := load.arena.internAttrs record.attrs
      let built := registry.build interned.2 (record.request interned.1 load.parent)
      { load with arena := built.2, latest := built.1, warnings } := by
  unfold Load.addRecord
  simp only
  rcases exists_warnings load line .unexpectedEnd (record.unfinished = true) with ⟨warned, same⟩
  rw [same]
  rcases exists_warnings { load with warnings := warned } line (.unknownType record.typeName)
    (record.typeName ≠ "" ∧ (registry.typeOf? record.typeName).isNone = true) with ⟨more, same⟩
  rw [same]
  exact ⟨more, rfl⟩

variable (direct : registry.Direct)
include direct

theorem stocked_addRecord {load : Load} (stocked : Stocked holds load.opened load.arena)
    (line : Nat) (record : Record) :
    Stocked holds (load.addRecord registry line record).opened
      (load.addRecord registry line record).arena := by
  have interned : Stocked holds load.opened (load.arena.internAttrs record.attrs).2 :=
    stocked.sheds (.names load.arena _) (.of_same fun _ => rfl) fun _ live => live
  rcases addRecord_eq registry load line record with ⟨warnings, same⟩
  rw [same]
  exact interned.build direct rfl load.parent_mem_opened

theorem stocked_add {load : Load} (stocked : Stocked holds load.opened load.arena)
    (line : Nat) (item : Item) :
    Stocked holds (load.add registry line item).opened (load.add registry line item).arena := by
  cases item with
  | record record => exact stocked_addRecord direct stocked line record
  | malformed problem => exact stocked
  | opening =>
    simp only [Load.add, Load.openBlock]
    split
    · split
      · rename_i node _ live
        have opened := stocked.ensureChildren node
        refine ⟨opened.toTidy, fun block member => ?_⟩
        rcases List.mem_cons.mp member with rfl | inside
        · exact opened.live _ (List.mem_cons_self ..)
        · rcases List.mem_cons.mp inside with rfl | inside
          · rw [Arena.ensureChildren, Arena.contains_modifyNode]
            exact live.2
          · exact opened.live block (List.mem_cons_of_mem _ inside)
      · exact stocked
    · exact stocked
  | closing =>
    rcases load with ⟨arena, root, _ | ⟨node, blocks⟩, latest, warnings⟩
    · exact stocked
    · refine ⟨stocked.toTidy, fun block member => stocked.live block ?_⟩
      rcases List.mem_cons.mp member with rfl | inside
      · exact List.mem_cons_self ..
      · exact List.mem_cons_of_mem _ (List.mem_cons_of_mem _ inside)
  | nothing => exact stocked

theorem stocked_addAll {options : Options} {rounds : Nat} {cursor : Cursor} {load : Load}
    (stocked : Stocked holds load.opened load.arena) :
    (load.addAll registry options rounds cursor).arena.Tidy holds := by
  induction rounds generalizing cursor load with
  | zero => exact stocked.toTidy
  | succ rounds induction =>
    unfold Load.addAll
    split
    · unfold Load.finish
      split <;> exact stocked.toTidy
    · rename_i item line _ _
      exact induction (stocked_add direct stocked line item)

theorem tidy_load {parent : NodeId} (tidy : arena.Tidy holds) (live : arena.contains parent = true)
    (source : String) (options : Options) :
    (load source arena registry parent options).2.Tidy holds := by
  have stocked : Stocked holds [parent] arena :=
    ⟨tidy, fun block member => List.mem_singleton.mp member ▸ live⟩
  unfold load
  rw [if_pos live]
  exact stocked_addAll direct (stocked.ensureChildren parent)

end Document
end RecordGraph
