import RecordGraph.Proofs.Arena.Kinds
import RecordGraph.Proofs.Path.Leaves
import RecordGraph.Proofs.SymbolTable.Agreement

/-!
# Stores respect the kinds of their nodes

A value that is assigned is converted to what the kind of the node at its path stores. The node is
found by reading the path, and the value is stored at the destination of the path, which is read by
itself; both are the same node. Where there is none, the kind of the new node is taken from the
value. Nodes that make way for it have no attributes. So an assignment leaves well-typed nodes well
typed, and so do evaluations, whose only stores are assignments.
-/

namespace RecordGraph

open RecordGraph.Arena (Respects Settles)

/-! ## Values and kinds -/

theorem SymbolTable.admits_convert (value : Value) (kind : Kind) :
    kind.admits (convert value kind) = true := by
  cases kind <;> cases value <;> rfl

theorem admits_of_inferKind {name : String} {attr : AttrId} {value : Value} {kind : Kind}
    (inferred : inferKind name (some (.single attr value)) = some kind) :
    kind.admits value = true := by
  unfold inferKind at inferred
  simp only [Option.bind_some, AttrList.entries_single, List.head?_cons] at inferred
  cases value <;> cases inferred <;> rfl

/-! ## Paths that make way -/

namespace Path

theorem primary_of_indirection {table : SymbolTable} {arena : Arena}
    {deeper : Bool → Reader Target} {start finish : Cursor} {node : Option NodeId}
    (indirect : beginsIndirection start.rest = true)
    (ran : primary table arena deeper start = .ok node finish) : node = none := by
  unfold primary at ran
  rcases bind_eq_ok_iff.mp ran with ⟨key, place, read, ran⟩
  have empty : key = "" := by
    rcases start with ⟨position, _ | ⟨first, rest⟩⟩
    · cases indirect
    · have dollar : first = '$' := by
        unfold beginsIndirection at indirect
        split at indirect
        · simp_all
        · simp_all
        · cases indirect
      subst dollar
      unfold identifier at read
      rcases bind_eq_ok_iff.mp read with ⟨_, _, ⟨⟩, read⟩
      rcases bind_eq_ok_iff.mp read with ⟨_, _, ⟨⟩, read⟩
      rcases bind_eq_ok_iff.mp read with ⟨second, _, ⟨⟩, read⟩
      split at read
      · rename_i opening
        rcases rest with _ | ⟨paren, rest⟩
        · cases opening
        · cases opening
          cases indirect
      · cases read
        rfl
  rw [if_pos empty] at ran
  cases ran
  rfl

structure Respected (holds : NodeId → Nat) (origin arena : Arena) : Prop where
  steady : arena.Steady [] holds
  respects : origin.Respects arena

theorem Respected.andThen {holds : NodeId → Nat} {origin before after : Arena}
    {fresh : List NodeId} (respected : Respected holds origin before)
    (settles : Settles fresh before after) (respects : before.Respects after) :
    Respected holds origin after :=
  ⟨(settles holds respected.steady).1, respected.respects.trans respects⟩

theorem respects_freshNode {registry : Registry} (direct : registry.Direct)
    (template : Option NodeId) (name : String) {arena : Arena} (wellFormed : arena.WellFormed) :
    arena.Respects (freshNode registry template name arena).2 := by
  rcases freshNode_bare direct template name arena with ⟨leaf, childless, missing, same⟩
  rw [same]
  exact .alloc wellFormed childless (Node.wellTyped_of_missing missing)

theorem respects_internAttr (name : String) (arena : Arena) :
    arena.Respects (internAttr name arena).2 := by
  rcases names_internAttr name arena with ⟨names, same⟩
  rw [same]
  exact .names arena names

theorem keeping_respected {registry : Registry} (direct : registry.Direct)
    (template : Option NodeId) (holds : NodeId → Nat) (origin : Arena) :
    Keeping registry template (Respected holds origin) where
  built {arena} name respected :=
    respected.andThen (settles_freshNode direct.allocates template name arena)
      (respects_freshNode direct template name respected.steady.wellFormed)
  roomy {arena} parent respected :=
    respected.andThen (.ensureChildren arena parent) (.ensureChildren arena parent)
  pushed {arena} parent child respected :=
    respected.andThen (.pushChild arena parent child) (.pushChild arena parent child)
  put {arena node} parent index _ respected :=
    respected.andThen (.setChild arena parent index node) (.setChild arena parent index node)
  freed {arena} node respected :=
    respected.andThen (.releaseIfUnowned arena node) (.releaseIfUnowned arena node)
  interned {arena} name respected :=
    respected.andThen (settles_internAttr name arena) (respects_internAttr name arena)

end Path

section

variable {others : NodeId → Nat} {registry : Option Registry} {table : SymbolTable} {arena : Arena}

theorem SymbolTable.respects_define (table : SymbolTable) (arena : Arena) (key : String)
    (node : NodeId) : arena.Respects (table.define arena key node).2 := by
  unfold define
  simp only
  split
  · exact .refl arena
  · split
    · exact (Respects.retain arena node).trans (.of_wanes (Arena.wanes_release _ _))
    · exact .retain arena node

theorem Path.respects_bind (table : SymbolTable) (arena : Arena) (pending : PendingBinding) :
    arena.Respects (bind table arena pending).2 := by
  rcases bind_eq_define table arena pending with ⟨renamed, naming, defines⟩
  have named : arena.Respects renamed := by
    rcases naming with rfl | rfl
    · exact .refl renamed
    · exact .modifyNode fun _ => .of_same rfl rfl
  rw [defines]
  exact named.trans (table.respects_define renamed pending.key pending.node)

variable (sound : Sound others registry (some table) arena) (direct : table.registry.Direct)
include sound direct

theorem Path.respects_build (text : String) (template : Option NodeId) (create : Bool) :
    arena.Respects (build table arena text template create).2.2 := by
  have keeping := keeping_respected direct template
    (arena.standing fun id => boundBy (some table) id + others id) arena
  have kept := keeping.buildPath create ⟨Cursor.ofText text, arena⟩
    ⟨sound.accounts.steady, .refl arena⟩
  unfold build
  split
  · exact .refl arena
  · split
    · rename_i same
      rw [same] at kept
      exact kept.respects
    · rename_i same
      rw [same] at kept
      exact kept.respects
    · rename_i pending later same
      rw [same] at kept
      exact kept.respects.trans (respects_bind table later.arena pending)

namespace SymbolTable

theorem respects_add (path : String) (node : NodeId) :
    arena.Respects (table.add arena path node).arena := by
  have built := Path.respects_build sound direct path (some node) true
  unfold add replace
  split
  · rename_i same
    rwa [same] at built
  · rename_i same
    rwa [same] at built

/-- A leaf that is built from a value is well typed, and so is all that makes way for it. -/
theorem respects_addLeaf (path : String) {leaf : Node} (childless : leaf.childArray = #[])
    (typed : leaf.WellTyped) :
    arena.Respects
      ((table.add (arena.alloc leaf).2 path (arena.alloc leaf).1).arena.releaseIfUnowned
        (arena.alloc leaf).1) := by
  have stored := Respects.alloc sound.accounts.steady.wellFormed childless typed
  have added := respects_add (sound.settle (.alloc arena leaf)) direct path (arena.alloc leaf).1
  exact (stored.trans added).trans (.releaseIfUnowned _ _)

omit sound direct in
theorem respects_store {node : NodeId} {attr : AttrId} {value : Value} {create : Bool}
    (fits : ∀ {content}, arena.node? node = some content → content.kind.admits value = true) :
    arena.Respects (store arena node attr value create) := by
  apply Respects.modifyNode
  intro content found
  split
  · exact ⟨rfl, fun typed => typed.setAttr attr (fits found)⟩
  · exact .refl content

/-- A value that the kind of the node at its destination stores is set without harm, and one without
such a node always. -/
theorem respects_set (path : String) {value : Value}
    (fits : ∀ {node name finish content},
      table.destination arena (.ofText path) = .ok (some node, name) finish →
        arena.node? node = some content → content.kind.admits value = true) :
    arena.Respects (table.set arena path value true).arena := by
  unfold set
  split
  · exact .refl arena
  · rename_i node name finish read
    have settles := settles_destinationAttr arena name true
    rcases @Path.names_destinationAttr arena name true with ⟨names, same⟩
    generalize destinationAttr arena name true = destination at settles same ⊢
    rcases destination with ⟨attr, later⟩
    cases same
    have interned := Respects.names arena names
    simp only
    split
    · exact interned.trans (respects_store fun found => fits read found)
    · exact interned
    · exact interned
    · rename_i given
      have soundNow : Sound others registry (some table) { arena with names } :=
        sound.settle settles
      rcases build_single direct { arena with names } given value with
        ⟨leaf, childless, attrs, inferred, built⟩
      have typed := Node.wellTyped_single attrs (admits_of_inferKind inferred)
      simp only [↓reduceIte, built]
      exact interned.trans (respects_addLeaf soundNow direct path childless typed)

omit sound direct in
theorem get_of_destination {path : String} {node : NodeId} {name : Option String}
    {finish : Path.Cursor}
    (read : table.destination arena (.ofText path) = .ok (some node, name) finish) :
    table.get arena path = some node := by
  rcases Path.destination_eq_ok_iff.mp read with ⟨place, primed, named, accepted⟩
  have plain : Path.beginsIndirection path.toList = false := by
    rw [Bool.eq_false_iff]
    intro indirect
    cases Path.primary_of_indirection indirect primed
  exact (get_eq_some_iff_readsAs plain).mpr ⟨name, place, finish, primed, named, accepted⟩

theorem respects_assign (path : String) (value : Value) :
    arena.Respects (table.assign arena path value).arena := by
  refine respects_set sound direct path fun {node name finish content} read found => ?_
  rw [get_of_destination read, Option.bind_some, Arena.kind?, found, Option.map_some,
    Option.map_some, Option.getD_some]
  exact admits_convert value content.kind

end SymbolTable

end

/-! ## Evaluation -/

namespace Evaluation

variable {others : NodeId → Nat} {registry : Option Registry} {table : Option SymbolTable}
  {arena : Arena}

theorem respects_settle {before : Arena} {effect : Effect (Except EvaluationError α)}
    (respects : before.Respects effect.arena) (node : NodeId) (default : α) :
    before.Respects (settle node effect default).arena := by
  unfold settle
  split
  · exact respects.trans (.modifyNode fun _ => .of_same rfl rfl)
  · exact respects.trans (.modifyNode fun _ => .of_same rfl rfl)

theorem respects_reading (table : Option SymbolTable) (arena : Arena) (inquiry : Inquiry α)
    (node : NodeId) (default : α) :
    arena.Respects (settle node (reading table arena inquiry) default).arena := by
  apply respects_settle
  unfold reading
  split <;> exact .refl arena

variable (sound : Sound others registry table arena)
  (direct : ∀ own, registry = some own → own.Direct)
include sound direct

theorem respects_runExpression (node : NodeId) :
    arena.Respects (runExpression table arena node).arena := by
  unfold runExpression
  split
  · exact .refl arena
  · split
    · exact .refl arena
    · exact SymbolTable.respects_assign sound (direct _ sound.registry_eq.symm) _ _

theorem respects_evaluate (node : NodeId) :
    arena.Respects (evaluate table arena node).arena := by
  unfold evaluate
  split
  · exact respects_settle (respects_runExpression sound direct node) node ()
  · unfold evaluateConditional
    split
    · exact respects_reading table arena _ node none
    · exact respects_reading table arena _ node none
    · exact .refl arena

omit sound in
theorem respects_evaluateExpression {table : SymbolTable}
    (sound : Sound others registry (some table) arena) (node : NodeId) :
    arena.Respects (evaluateExpression table arena node).arena := by
  unfold evaluateExpression
  split
  · exact respects_settle (respects_runExpression sound direct node) node ()
  · exact .refl arena

end Evaluation
end RecordGraph
