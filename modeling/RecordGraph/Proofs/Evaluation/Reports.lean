import RecordGraph.Proofs.Evaluation.Results
import RecordGraph.Proofs.Path.Literal
import RecordGraph.Proofs.SymbolTable.Delivery
import RecordGraph.Proofs.SymbolTable.Typing

/-!
# What an expression reports

An expression that reports success has applied its operator to its operands, and its destination is
a text that was stored at. Where nothing in that text is computed, it is read as a plain path, and
the value is found there. The exception is a text with a point and no name behind it: a node that it
leads to is reported, though nothing is stored.
-/

namespace RecordGraph

open RecordGraph.Path (Plain Literal Unnamed)

/-! ## Destinations in a strict table -/

namespace Path

theorem Literal.direct {text : List Char} (literal : Literal text) :
    beginsIndirection text = false := by
  rw [Bool.eq_false_iff]
  intro indirect
  rcases text with _ | ⟨first, rest⟩
  · cases indirect
  · have dollar : first = '$' := by
      unfold beginsIndirection at indirect
      split at indirect <;> simp_all
    exact literal.no_dollar (dollar ▸ List.mem_cons_self)

end Path

namespace SymbolTable

section

variable {table : SymbolTable} (strict : table.robust = false) {text : String}
  (literal : Literal text.toList)

include literal

theorem result_add_of_keyless (keyless : text.toList.head?.any Path.beginsIdentifier = false)
    (arena : Arena) (node : NodeId) : (table.add arena text node).result = none := by
  rcases @Path.identifier_empty table arena (Path.inner table arena) (.ofText text)
    literal.no_dollar keyless with ⟨finish, read⟩
  have primed : Path.buildPrimary table true (some node) ⟨.ofText text, arena⟩ =
      .ok (none, none) ⟨finish, arena⟩ := by
    unfold Path.buildPrimary
    refine bind_eq_ok_iff.mpr ⟨_, _, Path.look_eq_ok_iff.mpr ⟨finish, read, rfl⟩, ?_⟩
    rw [if_pos rfl]
    rfl
  refine Option.eq_none_iff_forall_ne_some.mpr fun other added => ?_
  rcases buildPrimary_of_add literal.direct added with ⟨_, _, _, given⟩
  cases primed.symm.trans given

theorem result_set_of_keyless (keyless : text.toList.head?.any Path.beginsIdentifier = false)
    {arena : Arena} {name : Option String} {finish : Path.Cursor} (value : Value)
    (read : table.destination arena (.ofText text) = .ok (none, name) finish) :
    (table.set arena text value true).result = none := by
  have read : (table.destination arena).run (.ofText text) = .ok (none, name) finish := read
  unfold set
  simp only [read, ↓reduceIte]
  split
  · contradiction
  · contradiction
  · rfl
  · split
    · rfl
    · rename_i built later _
      exact result_add_of_keyless literal keyless later built

include strict

theorem query_of_unnamed (unnamed : Unnamed text.toList) (arena : Arena) :
    table.query arena text = .absent := by
  rw [query, resolve, Path.resolve]
  cases ran : (Path.path table arena false).run (.ofText text) with
  | error failure finish => rfl
  | ok target finish =>
    rcases target with ⟨_ | node, attr⟩
    · rfl
    · rcases (Path.path_eq_ok_iff literal.direct).mp ran with
        ⟨place, name, primed, named, accepted, rfl⟩
      have read : table.destination arena (.ofText text) = .ok (some node, name) finish :=
        Path.destination_eq_ok_iff.mpr ⟨place, primed, named, accepted⟩
      rcases Path.destination_cases strict literal read with
        ⟨-, none⟩ | ⟨plain, rfl, -⟩ | ⟨rfl, -⟩
      · cases none
      · exact absurd unnamed plain.not_unnamed
      · rfl

end

theorem exists_destinationAttr {arena : Arena}
    (internable : ∀ name, ∃ attr names, arena.names.intern name = .ok (attr, names))
    (plain : Plain) : ∃ attr, (destinationAttr arena plain.attr true).1 = some attr := by
  rcases plain.attrText_cases with ⟨none, -⟩ | ⟨name, given, isIdentifier, -⟩
  · exact ⟨.value, by rw [none]; rfl⟩
  · rcases internable name with ⟨attr, names, interned⟩
    refine ⟨attr, ?_⟩
    rw [given, Path.destinationAttr_some isIdentifier.ne_empty]
    simp only [↓reduceIte, Path.internAttr, interned]

section

variable {workspace : Workspace} {claims : NodeId → Nat} (balanced : workspace.Balanced claims)
  {table : SymbolTable} (member : table ∈ workspace.tables) (strict : table.robust = false)
  (live : ∀ key origin, table.lookup key = some origin → workspace.arena.contains origin = true)
  (sprouts : table.registry.Sprouts) (delivers : table.registry.Delivers)
  (internable : ∀ name, ∃ attr names, workspace.arena.names.intern name = .ok (attr, names))

include balanced member in
theorem held_of_lookup {key : String} {origin : NodeId} (bound : table.lookup key = some origin) :
    workspace.arena.Issued origin ∧ (workspace.arena.contains origin = true →
      0 < workspace.arena.standing (fun id => workspace.bindingCount id + claims id) origin) := by
  have bindings :=
    List.le_sum_of_mem (List.mem_map_of_mem (f := (·.bindingCount origin)) member)
  have claimed : 0 < workspace.bindingCount origin + claims origin :=
    Nat.add_pos_left (Nat.lt_of_lt_of_le (bindingCount_pos bound) bindings) _
  refine ⟨balanced.accounts.issued claimed, fun standing => ?_⟩
  simp only [Arena.standing, standing, ↓reduceIte]
  exact claimed

include balanced member strict live sprouts delivers internable

/-- A value that is stored without computing anything is what a plain path answers afterwards, or a
node was found at a point without a name and nothing was stored. -/
theorem set_of_literal {text : String} (literal : Literal text.toList) {value : Value} {id : NodeId}
    (stored : (table.set workspace.arena text value true).result = some id) :
    (∃ plain : Plain, plain.text = text ∧
      ∃ attr, Answers (table.set workspace.arena text value true).table
        (table.set workspace.arena text value true).arena plain id attr value) ∨
      (Unnamed text.toList ∧
        table.set workspace.arena text value true = ⟨some id, table, workspace.arena, []⟩) := by
  cases ran : table.destination workspace.arena (.ofText text) with
  | error failure finish =>
    have ran : (table.destination workspace.arena).run (.ofText text) = .error failure finish := ran
    rw [set, ran] at stored
    cases stored
  | ok target finish =>
    rcases target with ⟨node, name⟩
    have read : (table.destination workspace.arena).run (.ofText text) = .ok (node, name) finish :=
      ran
    rcases Path.destination_cases strict literal ran with
      ⟨keyless, rfl⟩ | ⟨plain, rfl, rfl⟩ | ⟨rfl, unnamed⟩
    · cases (result_set_of_keyless literal keyless value ran).symm.trans stored
    · refine .inl ⟨plain, rfl, ?_⟩
      rcases exists_destinationAttr internable plain with ⟨attr, named⟩
      refine ⟨attr, ?_⟩
      cases node with
      | none =>
        exact answers_of_missing sprouts delivers balanced.accounts.steady
          (fun origin => held_of_lookup balanced member) named ran stored
      | some node =>
        rcases Path.destination_eq_ok_iff.mp ran with ⟨place, primed, -, -⟩
        have made := set_of_present value ran named
        rw [made] at stored ⊢
        cases stored
        exact answers_of_present balanced live named primed
    · refine .inr ⟨unnamed, ?_⟩
      unfold set at stored ⊢
      simp only [read, destinationAttr] at stored ⊢
      cases node with
      | none => cases stored
      | some node =>
        cases stored
        rfl

end

end SymbolTable

/-! ## Reports -/

namespace SymbolTable

/-- The value as what the kind of the node at the path stores, if there is one. -/
def asStored (table : SymbolTable) (arena : Arena) (path : String) (value : Value) : Value :=
  (((table.get arena path).bind arena.kind?).map (convert value)).getD value

theorem assign_eq (table : SymbolTable) (arena : Arena) (path : String) (value : Value) :
    ∃ failures, table.assign arena path value =
      { table.set arena path (table.asStored arena path value) true with failures } :=
  ⟨_, rfl⟩

end SymbolTable

namespace Evaluation

variable {table : SymbolTable} {arena : Arena} {node : NodeId}

theorem runExpression_of_computes {destination : String} {value : Value}
    (computes : Computes (some table) arena node destination value) :
    let outcome := table.assign arena destination value
    let effect := runExpression (some table) arena node
    effect.table = some outcome.table ∧ effect.arena = outcome.arena ∧
      effect.result.isOk = outcome.result.isSome := by
  rcases (finds_expressionResult (some table) arena node [] (destination, value)).mpr computes with
    ⟨record, ran⟩
  have ran : (expressionResult (some table) arena node).run [] = .ok (destination, value) record :=
    ran
  unfold runExpression
  simp only [ran, true_and]
  cases (table.assign arena destination value).result <;> rfl

theorem computes_of_runExpression
    (succeeded : (runExpression (some table) arena node).result.isOk = true) :
    ∃ destination value, Computes (some table) arena node destination value := by
  unfold runExpression at succeeded
  cases ran : (expressionResult (some table) arena node).run [] with
  | error cause record =>
    rw [ran] at succeeded
    cases succeeded
  | ok found record =>
    exact ⟨_, _, (finds_expressionResult (some table) arena node [] found).mp ⟨record, ran⟩⟩

/-- An evaluation reports success just if an expression has a result and this is assigned to its
destination. -/
theorem evaluateExpression_eq_true_iff :
    (evaluateExpression table arena node).result = true ↔
      arena.kind? node = some .expr ∧ ∃ destination value,
        Computes (some table) arena node destination value ∧
          (table.assign arena destination value).result.isSome = true := by
  unfold evaluateExpression
  split
  · rename_i kind
    constructor
    · intro succeeded
      rcases computes_of_runExpression succeeded with ⟨destination, value, computes⟩
      refine ⟨kind, destination, value, computes, ?_⟩
      rw [← (runExpression_of_computes computes).2.2]
      exact succeeded
    · rintro ⟨-, destination, value, computes, stored⟩
      rw [← (runExpression_of_computes computes).2.2] at stored
      exact stored
  · rename_i other
    constructor
    · rintro ⟨⟩
    · rintro ⟨kind, -⟩
      exact absurd kind other

/-- What is left behind by an evaluation that reports success: the result is assigned, and the node
is not marked as failed. -/
theorem effect_of_reported {destination : String} {value : Value}
    (reported : (evaluateExpression table arena node).result = true)
    (computes : Computes (some table) arena node destination value) :
    let outcome := table.assign arena destination value
    (∃ id, outcome.result = some id) ∧
      (evaluateExpression table arena node).table = some outcome.table ∧
        (evaluateExpression table arena node).arena =
          outcome.arena.modifyNode node (·.unmark ⟨true, false⟩) := by
  rcases evaluateExpression_eq_true_iff.mp reported with ⟨kind, -⟩
  rcases runExpression_of_computes computes with ⟨sameTable, sameArena, same⟩
  unfold evaluateExpression at reported ⊢
  simp only [kind] at reported ⊢
  rw [reported] at same
  refine ⟨Option.isSome_iff_exists.mp same.symm, ?_⟩
  rw [← sameTable, ← sameArena]
  generalize runExpression (some table) arena node = effect at reported ⊢
  rcases effect with ⟨_ | _, later, grown, failures⟩
  · cases reported
  · exact ⟨rfl, rfl⟩

end Evaluation

section

open Evaluation (Computes evaluateExpression)

variable {workspace : Workspace} {claims : NodeId → Nat}

/-- An expression that reports success, in a strict table of a balanced workspace whose bindings are
live, has a result, and the destination holds it afterwards as what the node there stores, if
nothing is computed in the destination and no point in it is without a name behind it. Where a point
is, nothing has been stored. Factories are asked for trees of new nodes that have the attributes
asked for, and the names of attributes have to find a number. -/
theorem Workspace.query_of_reported (balanced : workspace.Balanced claims) {table : SymbolTable}
    (member : table ∈ workspace.tables) (strict : table.robust = false)
    (live : ∀ key origin, table.lookup key = some origin → workspace.arena.contains origin = true)
    (sprouts : table.registry.Sprouts) (delivers : table.registry.Delivers)
    (internable : ∀ name, ∃ attr names, workspace.arena.names.intern name = .ok (attr, names))
    {node : NodeId}
    (reported : (evaluateExpression table workspace.arena node).result = true) :
    let effect := evaluateExpression table workspace.arena node
    (∃ destination value, Computes (some table) workspace.arena node destination value) ∧
      ∀ destination value, Computes (some table) workspace.arena node destination value →
        Literal destination.toList → ∃ later, effect.table = some later ∧
          (¬ Unnamed destination.toList → later.query effect.arena destination =
            table.asStored workspace.arena destination value) ∧
          (Unnamed destination.toList → later = table ∧
            effect.arena = workspace.arena.modifyNode node (·.unmark ⟨true, false⟩) ∧
            later.query effect.arena destination = .absent) := by
  intro effect
  rcases Evaluation.evaluateExpression_eq_true_iff.mp reported with
    ⟨-, destination, value, computes, -⟩
  refine ⟨⟨destination, value, computes⟩, ?_⟩
  clear computes
  intro destination value computes literal
  rcases Evaluation.effect_of_reported reported computes with ⟨⟨stored, assigned⟩, later, grown⟩
  rcases table.assign_eq workspace.arena destination value with ⟨failures, same⟩
  rw [same] at assigned later grown
  refine ⟨_, later, ?_⟩
  rcases SymbolTable.set_of_literal balanced member strict live sprouts delivers internable literal
    assigned with ⟨plain, rfl, attr, answers⟩ | ⟨unnamed, made⟩
  · refine ⟨fun _ => ?_, fun unnamed => absurd unnamed plain.not_unnamed⟩
    have unmarked (arena : Arena) :
        arena.Enriched (arena.modifyNode node (·.unmark ⟨true, false⟩)) :=
      .modifyNode arena node fun _ => ⟨id, id⟩
    rw [grown]
    exact (answers.enriched (unmarked _)).query
  · refine ⟨fun named => absurd unnamed named, fun _ => ?_⟩
    simp only [made] at grown ⊢
    exact ⟨trivial, grown, SymbolTable.query_of_unnamed strict literal unnamed _⟩

end

namespace Workspace

open Evaluation (Computes Destined evaluateExpression)
open SymbolTable (keyed balanced_keyed)

def operands (destination : String) : AttrList :=
  ((AttrList.single .op (.text "SET")).set .var1 (.int 5)).set .result (.text destination)

def assigning (destination : String) : Arena :=
  (keyed.2.alloc { Node.ofKind "e" .expr with attrs := some (operands destination) }).2

theorem balanced_assigning (destination : String) :
    Workspace.Balanced ⟨assigning destination, [keyed.1]⟩ fun _ => 0 :=
  balanced_of_accounts (balanced_keyed.accounts.settle (.alloc keyed.2 _))

theorem live_assigning {destination : String}
    (contained : (assigning destination).contains ⟨0, 0⟩ = true) (key : String) (origin : NodeId)
    (bound : keyed.1.lookup key = some origin) :
    (assigning destination).contains origin = true := by
  have lone : keyed.1.lookup key = if "a" = key then some ⟨0, 0⟩ else none := by
    simp [keyed, SymbolTable.define, SymbolTable.lookup, SymbolTable.empty,
      Std.ExtTreeMap.getElem?_insert]
  split at lone
  · cases lone.symm.trans bound
    exact contained
  · cases lone.symm.trans bound

/-- The index is where no child is yet. The leaf that is made there holds the value under the name
behind the point. -/
theorem query_of_reported_noted :
    let effect := evaluateExpression keyed.1 (assigning "a[1].note") ⟨1, 0⟩
    Workspace.Balanced ⟨assigning "a[1].note", [keyed.1]⟩ (fun _ => 0) ∧
      keyed.1.registry.Sprouts ∧ keyed.1.registry.Delivers ∧
      keyed.1.get (assigning "a[1].note") "a[1]" = none ∧ effect.result = true ∧
      ∃ later, effect.table = some later ∧ later.query effect.arena "a[1].note" = .int 5 := by
  have direct : keyed.1.registry.Direct := Registry.direct_standard
  have internable (name : String) :
      ∃ attr names, (assigning "a[1].note").names.intern name = .ok (attr, names) :=
    NameTable.exists_intern (by decide +kernel) name
  have computes : Computes (some keyed.1) (assigning "a[1].note") ⟨1, 0⟩ "a[1].note" (.int 5) :=
    by decide +kernel
  have reported : (evaluateExpression keyed.1 (assigning "a[1].note") ⟨1, 0⟩).result = true := by
    decide +kernel
  have literal : Literal "a[1].note".toList := by decide +kernel
  have named : ¬ Unnamed "a[1].note".toList := by decide +kernel
  have converted : keyed.1.asStored (assigning "a[1].note") "a[1].note" (.int 5) = .int 5 := by
    decide +kernel
  have stores := (@query_of_reported ⟨assigning "a[1].note", [keyed.1]⟩ (fun _ => 0)
    (balanced_assigning _) keyed.1 (List.mem_singleton_self _) (by decide +kernel)
    (live_assigning (by decide +kernel)) direct.sprouts direct.delivers internable ⟨1, 0⟩
    reported).2 _ _ computes literal
  rcases stores with ⟨later, left, stored, -⟩
  exact ⟨balanced_assigning _, direct.sprouts, direct.delivers, by decide +kernel, reported, later,
    left, (stored named).trans converted⟩

/-- The node of the key is found at a point without a name behind it, so the expression reports
success. It has stored nothing. -/
theorem reported_unstored :
    let effect := evaluateExpression keyed.1 (assigning "a.") ⟨1, 0⟩
    Workspace.Balanced ⟨assigning "a.", [keyed.1]⟩ (fun _ => 0) ∧ keyed.1.robust = false ∧
      (∀ key origin, keyed.1.lookup key = some origin →
        (assigning "a.").contains origin = true) ∧
      Computes (some keyed.1) (assigning "a.") ⟨1, 0⟩ "a." (.int 5) ∧ Literal "a.".toList ∧
      keyed.1.asStored (assigning "a.") "a." (.int 5) = .int 5 ∧ effect.result = true ∧
      ∃ later, effect.table = some later ∧ later.query effect.arena "a." = .absent ∧
        later.query effect.arena "a" = .absent :=
  ⟨balanced_assigning _, by decide +kernel, live_assigning (by decide +kernel), by decide +kernel,
    by decide +kernel, by decide +kernel, by decide +kernel, _, rfl, by decide +kernel,
    by decide +kernel⟩

end Workspace

end RecordGraph
