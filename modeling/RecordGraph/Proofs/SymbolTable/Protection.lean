import RecordGraph.Proofs.Walk.Accounts

/-!
# What others hold outlives a change

Whoever works on a table may free nodes, but none that is claimed from elsewhere: by a binding of
another table or by a caller. Where the arena accounts for the claims, each of them is an owner that
no operation on the table takes away. That holds in every shape of the graph, cycles included, and
whatever factories the registry has, as long as they only store new nodes.
-/

namespace RecordGraph

open RecordGraph.Arena (Settles)

def Protects (others : NodeId → Nat) (before after : Arena) : Prop :=
  ∀ id, 0 < others id → before.contains id = true → after.contains id = true

variable {others : NodeId → Nat} {registry : Option Registry}

namespace Protects

variable {before middle after : Arena} {table : Option SymbolTable} {fresh : List NodeId}

theorem refl (arena : Arena) : Protects others arena arena :=
  fun _ _ live => live

theorem trans (left : Protects others before middle) (right : Protects others middle after) :
    Protects others before after :=
  fun id claimed live => right id claimed (left id claimed live)

theorem settle (sound : Sound others registry table before) (settles : Settles fresh before after) :
    Protects others before after :=
  fun _ claimed live => sound.accounts.held settles (Nat.add_pos_right _ claimed) live

/-- What follows a change that settles its accounts is protected if it protects what it finds. -/
theorem behind (sound : Sound others registry table before) (settles : Settles fresh before middle)
    (rest : Sound others registry table middle → Protects others middle after) :
    Protects others before after :=
  (settle sound settles).trans (rest (sound.settle settles))

end Protects

section

variable {table : SymbolTable} {arena : Arena} (sound : Sound others registry (some table) arena)
include sound

theorem protects_define (key : String) (node : NodeId) :
    Protects others arena (table.define arena key node).2 :=
  fun _ claimed live => SymbolTable.contains_define sound.accounts key node claimed live

theorem protects_clear : Protects others arena (table.clear arena).2 :=
  fun _ claimed live => SymbolTable.contains_clear sound.accounts claimed live

theorem protects_undefine (key : String) :
    Protects others arena (table.undefine arena key).2 := by
  intro id claimed live
  unfold SymbolTable.undefine
  split
  · rename_i old found
    exact sound.accounts.held_release (SymbolTable.bindingCount_given found)
      (Nat.add_pos_right _ claimed) live
  · exact live

theorem Path.protects_bind (pending : PendingBinding) :
    Protects others arena (bind table arena pending).2 := by
  rcases bind_eq_define table arena pending with ⟨named, naming, defines⟩
  rw [defines]
  exact .behind sound (settles_named naming) fun sound => protects_define sound _ _

theorem Path.protects_build (text : String) (template : Option NodeId) (create : Bool) :
    Protects others arena (build table arena text template create).2.2 := by
  unfold build
  split
  · exact .refl arena
  · have meets := meets_buildPath sound.registry_allocates create template arena
      ⟨Cursor.ofText text, arena⟩ (.refl arena)
    split
    · rename_i same
      rw [same] at meets
      exact .settle sound meets
    · rename_i same
      rw [same] at meets
      exact .settle sound meets.1
    · rename_i same
      rw [same] at meets
      exact .behind sound meets.1 fun sound => protects_bind sound _

namespace SymbolTable

theorem protects_replace (path : String) (template : Option NodeId) (create : Bool) :
    Protects others arena (table.replace arena path template create).arena := by
  have built := Path.protects_build sound path template create
  unfold replace
  split
  · rename_i same
    rwa [same] at built
  · rename_i same
    rwa [same] at built

theorem protects_add (path : String) (node : NodeId) :
    Protects others arena (table.add arena path node).arena :=
  protects_replace sound path (some node) true

theorem protects_set (path : String) (value : Value) (create : Bool) :
    Protects others arena (table.set arena path value create).arena := by
  unfold set
  split
  · exact .refl arena
  · rename_i node name _ _
    refine .behind sound (settles_destinationAttr arena name create) fun sound => ?_
    generalize destinationAttr arena name create = destination at sound ⊢
    rcases destination with ⟨attr, interned⟩
    simp only at sound ⊢
    split
    · exact .settle sound (settles_store interned _ _ value create)
    · exact .refl interned
    · exact .refl interned
    · rename_i attr _
      split
      · have settles := sound.registry_allocates.settles_build interned
          { BuildRequest.named "" with attrs := some (.single attr value) } rfl
        split
        · rename_i same
          rw [same] at settles
          exact .settle sound settles
        · rename_i built stored same
          rw [same] at settles
          have given : stored.Issued built :=
            (settles _ sound.accounts.steady).2.given (List.mem_cons_self ..)
          refine .behind sound settles fun sound => (protects_add sound path built).trans ?_
          exact .settle (keeps_add sound path given).sound (.releaseIfUnowned _ built)
      · exact .refl interned

theorem protects_setAttr (path attr : String) (value : Value) (create : Bool) :
    Protects others arena (table.setAttr arena path attr value create).2 := by
  have settles : Settles [] arena (if create then Path.internAttr attr arena
      else (arena.names.query attr, arena)).2 := by
    split
    · exact Path.settles_internAttr attr arena
    · exact .refl arena
  unfold setAttr
  refine .behind sound settles fun sound => ?_
  generalize (if create then Path.internAttr attr arena else (arena.names.query attr, arena)) =
    key at sound ⊢
  rcases key with ⟨key, interned⟩
  simp only at sound ⊢
  split
  · split
    · split
      · exact .settle sound (settles_store interned _ _ value create)
      · exact .refl interned
    · exact .refl interned
  · exact .refl interned

theorem protects_assign (path : String) (value : Value) :
    Protects others arena (table.assign arena path value).arena :=
  protects_set sound path _ true

end SymbolTable

end

/-! ## Evaluation -/

namespace Evaluation

variable {table : Option SymbolTable} {arena : Arena}

theorem protects_settle {before : Arena} {effect : Effect (Except EvaluationError α)}
    (sound : Sound others registry effect.table effect.arena)
    (protects : Protects others before effect.arena) (node : NodeId) (default : α) :
    Protects others before (settle node effect default).arena := by
  unfold settle
  split
  · exact protects.trans (.settle sound (.childless _ node fun _ => rfl))
  · exact protects.trans (.settle sound (.childless _ node fun _ => rfl))

variable (sound : Sound others registry table arena)
include sound

theorem protects_reading (inquiry : Inquiry α) (node : NodeId) (default : α) :
    Protects others arena (settle node (reading table arena inquiry) default).arena := by
  apply protects_settle (keeps_reading sound inquiry).sound
  unfold reading
  split <;> exact .refl arena

theorem protects_runExpression (node : NodeId) :
    Protects others arena (runExpression table arena node).arena := by
  unfold runExpression
  split
  · exact .refl arena
  · split
    · exact .refl arena
    · exact SymbolTable.protects_assign sound _ _

theorem protects_evaluate (node : NodeId) :
    Protects others arena (evaluate table arena node).arena := by
  unfold evaluate
  split
  · exact protects_settle (keeps_runExpression sound node).sound
      (protects_runExpression sound node) node ()
  · unfold evaluateConditional
    split
    · exact protects_reading sound _ node none
    · exact protects_reading sound _ node none
    · exact .refl arena

omit sound in
theorem protects_evaluateExpression {table : SymbolTable}
    (sound : Sound others registry (some table) arena) (node : NodeId) :
    Protects others arena (evaluateExpression table arena node).arena := by
  unfold evaluateExpression
  split
  · exact protects_settle (keeps_runExpression sound node).sound
      (protects_runExpression sound node) node ()
  · exact .refl arena

end Evaluation

/-! ## Walks -/

namespace Walk

section

variable {store after : Store} {limit : DepthLimit}
  (sound : Sound others registry store.table store.arena)
include sound

theorem protects_bindCounter (loop : NodeId) (counter : Int64) :
    Protects others store.arena (store.bindCounter loop counter).arena := by
  rcases store with ⟨arena, table, failures⟩
  have settles : Settles [] arena (arena.modifyNode loop (·.setAttr .value (.int counter))) :=
    .childless arena loop fun _ => rfl
  cases table with
  | none => exact .settle sound settles
  | some table => exact .behind sound settles fun sound => protects_define sound _ loop

theorem protects_steps {frames later : List Frame} (steps : Steps limit store frames after later) :
    Protects others store.arena after.arena := by
  cases steps with
  | rested | passed | left => exact .refl _
  | @entered _ _ child start _ new =>
    have noted : Sound others registry (store.note new).table (store.note new).arena := sound
    exact protects_bindCounter noted child start
  | unselected child | @selected _ _ child => exact Evaluation.protects_evaluate sound child
  | turned => exact protects_bindCounter sound _ _

end

variable {walk : Walk} {before : Arena}

theorem protects_step (keeps : Keeps others registry before walk) :
    Protects others walk.arena walk.step.2.arena := by
  rcases walk.step_cases with ⟨after, later, same, steps⟩
  have sound : Sound others registry walk.store.table walk.store.arena := keeps.state.sound
  rw [same]
  exact protects_steps sound steps

theorem protects_settle {rounds : Nat} {settled : Walk} (keeps : Keeps others registry before walk)
    (ran : walk.settle rounds = some settled) : Protects others walk.arena settled.arena := by
  induction rounds generalizing walk with
  | zero => cases ran
  | succ rounds induction =>
    have stepped := keeps.step
    have protects := protects_step keeps
    unfold settle at ran
    split at ran
    · rename_i same
      rw [same] at stepped protects
      exact protects.trans (induction stepped ran)
    · rename_i same
      rw [same] at protects
      cases ran
      exact protects

theorem protects_next {rounds : Nat} {given : Option NodeId} {later : Walk}
    (keeps : Keeps others registry before walk) (ran : walk.next rounds = some (given, later)) :
    Protects others walk.arena later.arena := by
  rw [next_eq] at ran
  rcases Option.map_eq_some_iff.mp ran with ⟨settled, found, same⟩
  have protects := protects_settle keeps found
  split at same
  · cases same
    exact protects
  · cases same
    exact protects

end Walk
end RecordGraph
