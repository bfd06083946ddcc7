import RecordGraph.Proofs.Path.Leaves
import RecordGraph.Proofs.SymbolTable.Storing

/-!
# Storing values makes no cycles

Values are stored through a table whose registry has no factories. What is built for them are
leaves, so there are no cycles if there were none before. And whatever is claimed apart from the
bindings of the table outlives the change.
-/

namespace RecordGraph

open RecordGraph.Arena (Acyclic Loose Settles Sheds)

structure Upholds (others : NodeId → Nat) (before after : Arena) : Prop where
  held : ∀ id, 0 < others id → before.contains id = true → after.contains id = true
  acyclic : after.Acyclic

variable {others : NodeId → Nat} {registry : Option Registry}

namespace Upholds

variable {before middle after : Arena} {table : Option SymbolTable} {fresh : List NodeId}

theorem refl (acyclic : before.Acyclic) : Upholds others before before :=
  ⟨fun _ _ live => live, acyclic⟩

theorem trans (left : Upholds others before middle) (right : Upholds others middle after) :
    Upholds others before after :=
  ⟨fun id claimed live => right.held id claimed (left.held id claimed live), right.acyclic⟩

theorem settle (sound : Sound others registry table before) (settles : Settles fresh before after)
    (acyclic : after.Acyclic) : Upholds others before after :=
  ⟨fun _ claimed live => sound.accounts.held settles (Nat.add_pos_right _ claimed) live, acyclic⟩

theorem childless (sound : Sound others registry table before) (acyclic : before.Acyclic)
    (id : NodeId) {change : Node → Node}
    (unchanged : ∀ node, (change node).childArray = node.childArray) :
    Upholds others before (before.modifyNode id change) :=
  settle sound (.childless before id unchanged)
    (acyclic.sheds (Arena.sheds_modifyNode before id unchanged))

end Upholds

section

variable {table : SymbolTable} {arena : Arena}

theorem SymbolTable.sheds_define (table : SymbolTable) (arena : Arena) (key : String)
    (node : NodeId) : arena.Sheds (table.define arena key node).2 := by
  unfold define
  simp only
  split
  · exact .refl arena
  · split
    · exact (Arena.sheds_retain arena node).trans (Arena.sheds_release _ _)
    · exact Arena.sheds_retain arena node

theorem SymbolTable.sheds_clear (table : SymbolTable) (arena : Arena) :
    arena.Sheds (table.clear arena).2 := by
  unfold clear
  simp only [← List.foldl_map]
  exact Arena.sheds_releaseAll arena _

variable (sound : Sound others registry (some table) arena) (acyclic : arena.Acyclic)
include sound acyclic

theorem upholds_define (key : String) (node : NodeId) :
    Upholds others arena (table.define arena key node).2 where
  held _ claimed live := SymbolTable.contains_define sound.accounts key node claimed live
  acyclic := acyclic.sheds (table.sheds_define arena key node)

theorem upholds_clear : Upholds others arena (table.clear arena).2 where
  held _ claimed live := SymbolTable.contains_clear sound.accounts claimed live
  acyclic := acyclic.sheds (table.sheds_clear arena)

theorem Path.upholds_bind (pending : PendingBinding) :
    Upholds others arena (bind table arena pending).2 := by
  rcases bind_eq_define table arena pending with ⟨renamed, naming, defines⟩
  have settles := settles_named naming
  have sheds : arena.Sheds renamed := by
    rcases naming with rfl | rfl
    · exact .refl renamed
    · exact Arena.sheds_modifyNode arena pending.node fun _ => rfl
  have named := Upholds.settle sound settles (acyclic.sheds sheds)
  rw [defines]
  exact named.trans (upholds_define (sound.settle settles) named.acyclic pending.key pending.node)

variable (direct : table.registry.Direct)
include direct

theorem Path.upholds_build (text : String) {template : Option NodeId} (create : Bool)
    (loose : ∀ leaf, template = some leaf → arena.Loose leaf)
    (unbound : ∀ key leaf, template = some leaf → table.lookup key ≠ some leaf) :
    Upholds others arena (build table arena text template create).2.2 := by
  have bound (key : String) (node : NodeId) (found : table.lookup key = some node) :
      Apart template arena node :=
    ⟨sound.accounts.issued (Nat.add_pos_left (SymbolTable.bindingCount_pos found) _),
      fun same => unbound key node same found⟩
  have grown := untangled_buildPath direct sound.accounts.steady bound create
    ⟨Cursor.ofText text, arena⟩ ⟨⟨⟨[], .refl arena⟩, acyclic⟩, loose⟩
  have upholds {later : Arena} (untangled : Untangled arena later) :
      Upholds others arena later := by
    rcases untangled.settles with ⟨fresh, settles⟩
    exact .settle sound settles untangled.acyclic
  unfold build
  split
  · exact .refl acyclic
  · split
    · rename_i same
      rw [same] at grown
      exact upholds grown
    · rename_i same
      rw [same] at grown
      exact upholds grown
    · rename_i pending later same
      rw [same] at grown
      rcases grown.settles with ⟨fresh, settles⟩
      exact (upholds grown).trans (upholds_bind (sound.settle settles) grown.acyclic pending)

namespace SymbolTable

theorem upholds_add (path : String) {leaf : NodeId} (loose : arena.Loose leaf)
    (unbound : ∀ key, table.lookup key ≠ some leaf) :
    Upholds others arena (table.add arena path leaf).arena := by
  have built := Path.upholds_build sound acyclic direct path true
    (fun asked same => Option.some.inj same ▸ loose)
    fun key asked same => Option.some.inj same ▸ unbound key
  unfold add replace
  split
  · rename_i same
    rwa [same] at built
  · rename_i same
    rwa [same] at built

theorem upholds_addLeaf (path : String) {node : Node} (childless : node.childArray = #[]) :
    Upholds others arena
      ((table.add (arena.alloc node).2 path (arena.alloc node).1).arena.releaseIfUnowned
        (arena.alloc node).1) := by
  have steady := sound.accounts.steady
  have placed := Arena.placed_alloc steady.wellFormed childless
  have settles := Settles.alloc arena node
  generalize (arena.alloc node).1 = leaf at placed settles ⊢
  generalize (arena.alloc node).2 = later at placed settles ⊢
  have stored := Upholds.settle sound settles (acyclic.sheds (placed.sheds childless))
  have soundLater := sound.settle settles
  have loose := placed.loose childless steady
  have unbound (key : String) : table.lookup key ≠ some leaf := fun found =>
    placed.not_issued
      (sound.accounts.issued (Nat.add_pos_left (bindingCount_pos found) _))
  have added := upholds_add soundLater stored.acyclic direct path loose unbound
  have kept := keeps_add soundLater path loose.issued
  exact (stored.trans added).trans (.settle kept.sound (.releaseIfUnowned _ leaf)
    (added.acyclic.sheds (Arena.sheds_releaseIfUnowned _ leaf)))

omit sound acyclic direct in
theorem sheds_destinationAttr (arena : Arena) (name : Option String) (create : Bool) :
    arena.Sheds (destinationAttr arena name create).2 := by
  unfold destinationAttr
  split
  · exact .refl arena
  · exact .refl arena
  · split
    · exact Path.sheds_internAttr _ arena
    · exact .refl arena

theorem upholds_set (path : String) (value : Value) (create : Bool) :
    Upholds others arena (table.set arena path value create).arena := by
  unfold set
  split
  · exact .refl acyclic
  · rename_i node name _ _
    have settles := settles_destinationAttr arena name create
    have interned := Upholds.settle sound settles
      (acyclic.sheds (sheds_destinationAttr arena name create))
    have soundNow := sound.settle settles
    generalize destinationAttr arena name create = destination at interned soundNow ⊢
    rcases destination with ⟨attr, later⟩
    simp only at interned soundNow ⊢
    split
    · exact interned.trans (.childless soundNow interned.acyclic _ fun node => by split <;> rfl)
    · exact interned
    · exact interned
    · rename_i attr _
      split
      · have rootless : ({ BuildRequest.named "" with attrs := some (.single attr value) } :
          BuildRequest).parent = none := rfl
        rcases direct.build later rootless with same | ⟨leaf, asks, same⟩
        · rw [same]
          exact interned
        · rw [same]
          exact interned.trans
            (upholds_addLeaf soundNow interned.acyclic direct path asks.childless)
      · exact interned

theorem upholds_assign (path : String) (value : Value) :
    Upholds others arena (table.assign arena path value).arena :=
  upholds_set sound acyclic direct path _ true

end SymbolTable

end

/-! ## Evaluation -/

namespace Evaluation

variable {table : Option SymbolTable} {arena : Arena}

theorem upholds_settle {before : Arena} {effect : Effect (Except EvaluationError α)}
    (sound : Sound others registry effect.table effect.arena)
    (upholds : Upholds others before effect.arena) (node : NodeId) (default : α) :
    Upholds others before (settle node effect default).arena := by
  unfold settle
  split
  · exact upholds.trans (.childless sound upholds.acyclic node fun _ => rfl)
  · exact upholds.trans (.childless sound upholds.acyclic node fun _ => rfl)

variable (sound : Sound others registry table arena) (acyclic : arena.Acyclic)
include sound acyclic

theorem upholds_reading (inquiry : Inquiry α) (node : NodeId) (default : α) :
    Upholds others arena (settle node (reading table arena inquiry) default).arena := by
  apply upholds_settle (keeps_reading sound inquiry).sound
  unfold reading
  split <;> exact .refl acyclic

theorem upholds_runExpression (direct : ∀ own, registry = some own → own.Direct) (node : NodeId) :
    Upholds others arena (runExpression table arena node).arena := by
  unfold runExpression
  split
  · exact .refl acyclic
  · split
    · exact .refl acyclic
    · exact SymbolTable.upholds_assign sound acyclic (direct _ sound.registry_eq.symm) _ _

theorem upholds_evaluate (direct : ∀ own, registry = some own → own.Direct) (node : NodeId) :
    Upholds others arena (evaluate table arena node).arena := by
  unfold evaluate
  split
  · exact upholds_settle (keeps_runExpression sound node).sound
      (upholds_runExpression sound acyclic direct node) node ()
  · unfold evaluateConditional
    split
    · exact upholds_reading sound acyclic _ node none
    · exact upholds_reading sound acyclic _ node none
    · exact .refl acyclic

end Evaluation
end RecordGraph
