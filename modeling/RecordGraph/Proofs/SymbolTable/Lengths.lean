import RecordGraph.Proofs.Arena.Lengths
import RecordGraph.Proofs.Path.Leaves
import RecordGraph.Proofs.SymbolTable.Storing

/-!
# Storing values lengthens no list without end

A child list is only filled up to an index that is within the bound on padding, and a template that
is put at a place takes the place of a child. So no list outgrows that bound unless it was longer
from the start. This holds of every arena and table, be they in order or not.
-/

namespace RecordGraph

/-! ## Paths that make way -/

namespace Path

variable {bound : Nat} {arena : Arena}

structure Bounded (bound : Nat) (place : Option (NodeId × Nat)) (arena : Arena) : Prop where
  within : arena.Within bound
  place : ∀ parent index, place = some (parent, index) → index < bound

theorem within_internAttr (name : String) (within : arena.Within bound) :
    (internAttr name arena).2.Within bound := by
  unfold internAttr
  split
  · exact within.names _
  · exact within

variable {table : SymbolTable} (direct : table.registry.Direct)
include direct

theorem within_freshNode (template : Option NodeId) (name : String) (within : arena.Within bound) :
    (freshNode table.registry template name arena).2.Within bound := by
  rcases freshNode_eq direct template name arena with ⟨leaf, childless, same⟩
  rw [same]
  exact within.alloc childless

theorem within_fillUp {template : Option NodeId} {parent : NodeId} {index : Nat} (rounds : Nat)
    (allowed : index < bound) (within : arena.Within bound) :
    (fillUp table.registry template parent index rounds arena).Within bound := by
  apply fillUp_keeps (Arena.Within bound) _ rounds within
  intro middle filler stored kept missing made
  rcases freshNode_eq direct template "" middle with ⟨leaf, childless, same⟩
  have within := kept.alloc childless
  have shorter := middle.childCount_alloc_le childless parent
  rw [← same, made] at within shorter
  have room : stored.childCount parent < bound :=
    Nat.lt_of_le_of_lt (Nat.le_trans shorter missing) allowed
  have pushed := within.pushChild room filler
  split
  · exact pushed
  · exact pushed.wanes (Arena.wanes_releaseIfUnowned _ _)

variable (ample : DepthLimit.padding.max ≤ bound) (create : Bool) (template : Option NodeId)
include ample

theorem bounded_makeRoom (parent : NodeId) (index : Nat) {place : Option (NodeId × Nat)} :
    (makeRoom table template parent index).Preserves (Bounded bound place) := by
  apply preserves_makeRoom
  intro arena rounds allows bounded
  have allowed : index < bound := by
    have padded := (DepthLimit.allows_iff _ _).mp allows
    omega
  have ensured := bounded.within.childless parent Node.childArray_ensureChildren
  exact ⟨within_fillUp direct rounds allowed ensured, bounded.place⟩

theorem bounded_childAt (parent : NodeId) (index : Nat) {place : Option (NodeId × Nat)} :
    (childAt table create template parent index).Meets (Bounded bound place)
      (fun child => Bounded bound (if child.isSome then some (parent, index) else place))
      (Bounded bound place) := by
  apply meets_childAt (bounded_makeRoom direct ample template parent index)
  intro arena bounded
  refine ⟨bounded.within, fun other number same => ?_⟩
  split at same
  · rename_i stands
    cases same
    rcases Option.isSome_iff_exists.mp stands with ⟨child, found⟩
    exact bounded.within.lt_of_child? found
  · exact bounded.place other number same

theorem within_buildIndices (start : NodeId) :
    (buildIndices table create template start).Preserves (Arena.Within bound) := by
  have followed (rounds : List Char) :
      (followIndices table create template rounds (some start) none).Meets
        (Arena.Within bound) (fun result => Bounded bound result.2) (Arena.Within bound) :=
    (meets_followIndices (fun _ => Bounded bound)
      (fun parent index _ => (bounded_childAt direct ample create template parent index).mono
        (fun _ => id) fun _ bounded => bounded.within)
      id (fun bounded => bounded.within) rounds (some start) none).mono
      (fun _ within => ⟨within, fun _ _ same => by cases same⟩) fun _ => id
  apply meets_buildIndices (fun _ => Bounded bound) followed _ fun bounded => bounded.within
  intro node last parent index arena _ bounded
  exact bounded.within.setChild (bounded.place parent index rfl) parent node

theorem within_buildPath :
    (buildPath table create template).Preserves (Arena.Within bound) := by
  have freed (node : NodeId) (arena : Arena) (within : arena.Within bound) :
      (arena.releaseIfUnowned node).Within bound :=
    within.wanes (Arena.wanes_releaseIfUnowned arena node)
  have primary : (buildPrimary table create template).Preserves (Arena.Within bound) := by
    apply keeps_buildPrimary (fun _ => Arena.Within bound) id
    · exact fun _ node _ => within_buildIndices direct ample create template node
    · exact fun key => within_freshNode direct template key
    · exact within_buildIndices direct ample create template
    · exact freed
  exact keeps_buildPath primary freed fun name arena => within_internAttr name

end Path

/-! ## Storing -/

structure Contained (bound : Nat) (table : Option SymbolTable) (arena : Arena) : Prop where
  within : arena.Within bound
  direct : ∀ own, table = some own → own.registry.Direct

namespace Contained

variable {bound : Nat} {table : SymbolTable} {arena : Arena}

theorem follow {later : SymbolTable} {after : Arena}
    (contained : Contained bound (some table) arena) (within : after.Within bound)
    (same : later.registry = table.registry) :
    Contained bound (some later) after where
  within := within
  direct own found := by
    cases found
    rw [same]
    exact contained.direct table rfl

variable (contained : Contained bound (some table) arena)
include contained

theorem define (key : String) (node : NodeId) :
    Contained bound (some (table.define arena key node).1) (table.define arena key node).2 := by
  apply contained.follow _ (SymbolTable.registry_define table arena key node)
  unfold SymbolTable.define
  simp only
  split
  · exact contained.within
  · split
    · exact (contained.within.retain node).wanes (Arena.wanes_release _ _)
    · exact contained.within.retain node

theorem bind (pending : Path.PendingBinding) :
    Contained bound (some (Path.bind table arena pending).1) (Path.bind table arena pending).2 := by
  rcases Path.bind_eq_define table arena pending with ⟨renamed, naming, defines⟩
  have named : renamed.Within bound := by
    rcases naming with rfl | rfl
    · exact contained.within
    · exact contained.within.childless pending.node fun _ => rfl
  rw [defines]
  exact (contained.follow named rfl).define pending.key pending.node

variable (ample : DepthLimit.padding.max ≤ bound)
include ample

theorem build (text : String) (template : Option NodeId) (create : Bool) :
    Contained bound (some (Path.build table arena text template create).2.1)
      (Path.build table arena text template create).2.2 := by
  have built := Path.within_buildPath (contained.direct table rfl) ample create template
    ⟨Path.Cursor.ofText text, arena⟩ contained.within
  unfold Path.build
  split
  · exact contained
  · split
    · rename_i same
      rw [same] at built
      exact contained.follow built rfl
    · rename_i same
      rw [same] at built
      exact contained.follow built rfl
    · rename_i pending progress same
      rw [same] at built
      exact (contained.follow built rfl).bind pending

theorem add (path : String) (node : NodeId) :
    Contained bound (some (table.add arena path node).table) (table.add arena path node).arena := by
  have built := contained.build ample path (some node) true
  unfold SymbolTable.add SymbolTable.replace
  split
  · rename_i same
    rwa [same] at built
  · rename_i same
    rwa [same] at built

omit contained ample in
theorem within_destinationAttr (within : arena.Within bound) (name : Option String)
    (create : Bool) : (SymbolTable.destinationAttr arena name create).2.Within bound := by
  unfold SymbolTable.destinationAttr
  split
  · exact within
  · exact within
  · split
    · exact Path.within_internAttr _ within
    · exact within

theorem set (path : String) (value : Value) (create : Bool) :
    Contained bound (some (table.set arena path value create).table)
      (table.set arena path value create).arena := by
  unfold SymbolTable.set
  split
  · exact contained
  · rename_i node name _ _
    have named := within_destinationAttr contained.within name create
    generalize SymbolTable.destinationAttr arena name create = destination at named ⊢
    rcases destination with ⟨attr, later⟩
    simp only at named ⊢
    have interned := contained.follow named rfl
    split
    · exact contained.follow (named.childless _ fun node => by split <;> rfl) rfl
    · exact interned
    · exact interned
    · rename_i attr _
      split
      · have rootless : ({ BuildRequest.named "" with attrs := some (.single attr value) } :
          BuildRequest).parent = none := rfl
        rcases (contained.direct table rfl).build later rootless with same | ⟨leaf, asks, same⟩
        · rw [same]
          exact interned
        · rw [same]
          have stored := contained.follow (named.alloc asks.childless) rfl
          have added := stored.add ample path (later.alloc leaf).1
          exact added.follow (added.within.wanes (Arena.wanes_releaseIfUnowned _ _)) rfl
      · exact interned

theorem assign (path : String) (value : Value) :
    Contained bound (some (table.assign arena path value).table)
      (table.assign arena path value).arena :=
  contained.set ample path _ true

end Contained

/-! ## Evaluation -/

namespace Evaluation

variable {bound : Nat} {table : Option SymbolTable} {arena : Arena}

theorem contained_settle {effect : Effect (Except EvaluationError α)}
    (contained : Contained bound effect.table effect.arena) (node : NodeId) (default : α) :
    Contained bound (settle node effect default).table (settle node effect default).arena := by
  unfold settle
  split
  · exact ⟨contained.within.childless node fun _ => rfl, contained.direct⟩
  · exact ⟨contained.within.childless node fun _ => rfl, contained.direct⟩

variable (contained : Contained bound table arena)
include contained

theorem contained_reading (inquiry : Inquiry α) :
    Contained bound (reading table arena inquiry).table (reading table arena inquiry).arena := by
  unfold reading
  split <;> exact contained

variable (ample : DepthLimit.padding.max ≤ bound)
include ample

theorem contained_runExpression (node : NodeId) :
    Contained bound (runExpression table arena node).table
      (runExpression table arena node).arena := by
  unfold runExpression
  split
  · exact contained
  · split
    · exact contained
    · exact contained.assign ample _ _

theorem contained_evaluate (node : NodeId) :
    Contained bound (evaluate table arena node).table (evaluate table arena node).arena := by
  unfold evaluate
  split
  · exact contained_settle (contained_runExpression contained ample node) node ()
  · unfold evaluateConditional
    split
    · exact contained_settle (contained_reading contained _) node none
    · exact contained_settle (contained_reading contained _) node none
    · exact contained

end Evaluation
end RecordGraph
