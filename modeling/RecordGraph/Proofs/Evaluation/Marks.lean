import RecordGraph.Evaluation
import RecordGraph.Proofs.Allocation
import RecordGraph.Proofs.Arena.Marks

/-!
# Evaluations do not see marks

A guard or a switch is evaluated by what paths and running texts come to, and by attributes, names
and child lists. None of these depends on marks, and the evaluation leaves nothing behind but a mark
on its own node. So evaluations do not disturb each other: they can be made in any order and as
often as one likes.
-/

namespace RecordGraph

open RecordGraph.Arena (Remarked)

variable {before after : Arena} (remarked : before.Remarked after)

/-! ## Paths -/

namespace Path

section

include remarked

theorem value?_remarked (target : Target) : target.value? after = target.value? before := by
  unfold Target.value?
  split
  · exact remarked.attrById? _ _
  · rfl

theorem value_remarked (target : Target) : target.value after = target.value before := by
  rw [Target.value, value?_remarked remarked, Target.value]

variable (table : SymbolTable)

section Grammar

variable (deeper : Bool → Reader Target)

theorem insideParens_remarked :
    insideParens table after deeper = insideParens table before deeper := by
  unfold insideParens
  simp only [value_remarked remarked]

theorem identifier_remarked : identifier table after deeper = identifier table before deeper := by
  unfold identifier
  simp only [insideParens_remarked remarked]

theorem indexValue_remarked : indexValue table after deeper = indexValue table before deeper := by
  unfold indexValue
  simp only [value_remarked remarked]

theorem indices_remarked (rounds : List Char) (current : Option NodeId) :
    indices table after deeper rounds current = indices table before deeper rounds current := by
  induction rounds generalizing current with
  | nil => rfl
  | cons _ rounds induction =>
    simp only [indices, indexValue_remarked remarked, remarked.child?, induction]

theorem primary_remarked : primary table after deeper = primary table before deeper := by
  unfold primary
  simp only [identifier_remarked remarked, indices_remarked remarked]

theorem attrPart_remarked : attrPart table after deeper = attrPart table before deeper := by
  unfold attrPart
  simp only [identifier_remarked remarked, remarked.names]

theorem pathOver_remarked (nested : Bool) :
    pathOver table after deeper nested = pathOver table before deeper nested := by
  unfold pathOver
  simp only [value_remarked remarked, primary_remarked remarked, attrPart_remarked remarked]

end Grammar

theorem below_remarked (levels : Nat) : below table after levels = below table before levels := by
  funext nested
  induction levels generalizing nested with
  | zero => rfl
  | succ levels induction =>
    rw [below, below, pathOver_remarked remarked, funext induction]

theorem path_remarked (nested : Bool) : path table after nested = path table before nested := by
  rw [path, path, inner, inner, below_remarked remarked, pathOver_remarked remarked]

theorem resolve_remarked (text : String) :
    resolve table after text = resolve table before text := by
  rw [resolve, resolve, path_remarked remarked]

theorem valueAt_remarked (cursor : Cursor) :
    valueAt table after cursor = valueAt table before cursor := by
  unfold valueAt
  simp only [path_remarked remarked, value_remarked remarked]

theorem fragments_remarked (rounds : Nat) (cursor : Cursor) :
    fragments table after rounds cursor = fragments table before rounds cursor := by
  induction rounds generalizing cursor with
  | zero => rfl
  | succ rounds induction => simp only [fragments, valueAt_remarked remarked, induction]

theorem fillIn_remarked (text : String) : fillIn table after text = fillIn table before text := by
  unfold fillIn
  simp only [fragments_remarked remarked]

end

end Path

/-! ## What an evaluation finds -/

namespace Evaluation

section

variable (table : Option SymbolTable)

section

include remarked

theorem operandValue_remarked (raw : Value) :
    operandValue table after raw = operandValue table before raw := by
  unfold operandValue SymbolTable.query SymbolTable.resolve
  simp only [Path.resolve_remarked remarked, Path.value_remarked remarked]

theorem operandFailures_remarked (raw : Value) :
    operandFailures table after raw = operandFailures table before raw := by
  unfold operandFailures SymbolTable.failuresOf
  simp only [Path.resolve_remarked remarked]

theorem operand_remarked (raw : Value) : operand table after raw = operand table before raw := by
  unfold operand
  simp only [operandValue_remarked remarked, operandFailures_remarked remarked]

theorem controlAttrs_remarked (node : NodeId) :
    controlAttrs after node = controlAttrs before node := by
  unfold controlAttrs
  rw [remarked.attrs]

theorem ownList_remarked (node : NodeId) : ownList after node = ownList before node := by
  unfold ownList
  rw [remarked.hasChildList]

theorem guardList_remarked (node : NodeId) :
    guardList table after node = guardList table before node := by
  unfold guardList
  simp only [remarked.hasChildList, controlAttrs_remarked remarked, operand_remarked remarked]

theorem caseLabel_remarked (case : NodeId) :
    caseLabel table after case = caseLabel table before case := by
  unfold caseLabel SymbolTable.fillIn
  simp only [remarked.name, Path.fillIn_remarked remarked]

theorem caseMatches_remarked (wanted : String) :
    caseMatches table after wanted = caseMatches table before wanted := by
  funext case
  unfold caseMatches
  simp only [remarked.name, caseLabel_remarked remarked]

theorem switchList_remarked (node : NodeId) :
    switchList table after node = switchList table before node := by
  unfold switchList
  simp only [remarked.hasChildList, controlAttrs_remarked remarked, operand_remarked remarked,
    remarked.children, caseMatches_remarked remarked, ownList_remarked remarked]

end

/-! ## Guards and switches -/

def Selects (arena : Arena) (node : NodeId) : Prop :=
  arena.kind? node = some .guard ∨ arena.kind? node = some .switch

theorem selects_of_conditional {arena : Arena} {node : NodeId}
    (conditional : (arena.kind? node).any Kind.isConditional = true)
    (other : arena.kind? node ≠ some .expr) : Selects arena node := by
  unfold Selects
  cases known : arena.kind? node with
  | none =>
    rw [known] at conditional
    cases conditional
  | some kind =>
    rw [known] at conditional other
    cases kind with
    | guard => exact .inl rfl
    | switch => exact .inr rfl
    | expr => exact absurd rfl other
    | _ => cases conditional

def selectedList (arena : Arena) (node : NodeId) : Inquiry (Option NodeId) :=
  if arena.kind? node = some .switch then switchList table arena node
  else guardList table arena node

def judge (arena : Arena) (node : NodeId) (inquiry : Inquiry (Option NodeId)) :
    Effect (Option NodeId) :=
  match inquiry.run [] with
  | .ok list failures => ⟨list, table, arena.modifyNode node (Node.failing false), failures⟩
  | .error cause failures =>
    ⟨none, table, arena.modifyNode node (Node.failing true), failures ++ [.evaluation cause]⟩

theorem settle_reading (arena : Arena) (node : NodeId) (inquiry : Inquiry (Option NodeId)) :
    settle node (reading table arena inquiry) none = judge table arena node inquiry := by
  unfold reading judge
  cases inquiry.run [] <;> simp only [settle, Node.mark_failed, Node.unmark_failed]

theorem evaluateConditional_eq {arena : Arena} {node : NodeId} (selects : Selects arena node) :
    evaluateConditional table arena node =
      judge table arena node (selectedList table arena node) := by
  rcases selects with guard | switch
  · simp only [evaluateConditional, selectedList, guard, settle_reading, reduceCtorEq, ↓reduceIte,
      Option.some.injEq]
  · simp only [evaluateConditional, selectedList, switch, settle_reading, ↓reduceIte]

theorem evaluate_eq {arena : Arena} {node : NodeId} (selects : Selects arena node) :
    evaluate table arena node = judge table arena node (selectedList table arena node) := by
  rw [← evaluateConditional_eq table selects]
  rcases selects with guard | switch
  · simp only [evaluate, guard]
  · simp only [evaluate, switch]

theorem selects_remarked (remarked : before.Remarked after) {node : NodeId}
    (selects : Selects before node) : Selects after node := by
  unfold Selects
  rwa [remarked.kind?]

theorem selectedList_remarked (remarked : before.Remarked after) (node : NodeId) :
    selectedList table after node = selectedList table before node := by
  unfold selectedList
  rw [remarked.kind?, switchList_remarked remarked, guardList_remarked remarked]

theorem judge_cases (node : NodeId) (inquiry : Inquiry (Option NodeId)) :
    ∃ list failed failures, ∀ arena, judge table arena node inquiry =
      ⟨list, table, arena.modifyNode node (Node.failing failed), failures⟩ := by
  unfold judge
  cases inquiry.run [] with
  | ok list failures => exact ⟨list, false, failures, fun _ => rfl⟩
  | error cause failures => exact ⟨none, true, failures ++ [.evaluation cause], fun _ => rfl⟩

/-- A guard or a switch selects the same list whatever the marks are, and leaves the same mark. -/
theorem evaluate_cases {arena : Arena} {node : NodeId} (selects : Selects arena node) :
    ∃ list failed failures, ∀ other, arena.Remarked other → evaluate table other node =
      ⟨list, table, other.modifyNode node (Node.failing failed), failures⟩ := by
  rcases judge_cases table node (selectedList table arena node) with
    ⟨list, failed, failures, judged⟩
  refine ⟨list, failed, failures, fun other remarked => ?_⟩
  rw [evaluate_eq table (selects_remarked remarked selects), selectedList_remarked table remarked,
    judged]

theorem evaluate_evaluate_comm (arena : Arena) {first second : NodeId}
    (selects : Selects arena first) (selectsToo : Selects arena second) :
    (evaluate table (evaluate table arena first).arena second).arena =
      (evaluate table (evaluate table arena second).arena first).arena := by
  rcases eq_or_ne first second with rfl | different
  · rfl
  · rcases evaluate_cases table selects with ⟨_, failed, _, one⟩
    rcases evaluate_cases table selectsToo with ⟨_, failedToo, _, two⟩
    rw [one arena (.refl arena), two arena (.refl arena),
      one _ (arena.remarked_failing second failedToo), two _ (arena.remarked_failing first failed)]
    exact arena.modifyNode_comm different _ _

end

/-- Of two guards or switches, in whatever order they are evaluated, each selects the list that it
selects on its own, and the arena is the same in the end. To evaluate one of them again selects the
same list and changes nothing. All that it changes is the mark for failure on its node, and the list
is the same in every arena that differs in marks alone. -/
theorem evaluations_independent (table : Option SymbolTable) (arena : Arena)
    {first second : NodeId} (selects : Selects arena first) (selectsToo : Selects arena second) :
    ((evaluate table (evaluate table arena second).arena first).result =
        (evaluate table arena first).result ∧
      (evaluate table (evaluate table arena first).arena second).result =
        (evaluate table arena second).result ∧
      (evaluate table (evaluate table arena first).arena second).arena =
        (evaluate table (evaluate table arena second).arena first).arena) ∧
    ((evaluate table (evaluate table arena first).arena first).result =
        (evaluate table arena first).result ∧
      (evaluate table (evaluate table arena first).arena first).arena =
        (evaluate table arena first).arena) ∧
    ((evaluate table arena first).table = table ∧
      ∃ failed, (evaluate table arena first).arena =
        arena.modifyNode first fun node => { node with status := ⟨failed, node.status.bad⟩ }) ∧
    (∀ other, arena.Remarked other →
      (evaluate table other first).result = (evaluate table arena first).result) ∧
    evaluateConditional table arena first = evaluate table arena first := by
  have comm := evaluate_evaluate_comm table arena selects selectsToo
  rcases evaluate_cases table selects with ⟨list, failed, failures, one⟩
  rcases evaluate_cases table selectsToo with ⟨_, failedToo, _, two⟩
  have own := one arena (.refl arena)
  have again := one _ (arena.remarked_failing first failed)
  have afterOther := one _ (arena.remarked_failing second failedToo)
  have otherAfter := two _ (arena.remarked_failing first failed)
  have other := two arena (.refl arena)
  refine ⟨⟨?_, ?_, comm⟩, ⟨?_, ?_⟩, ⟨?_, failed, ?_⟩, fun remade remarked => ?_, ?_⟩
  · rw [other, afterOther, own]
  · rw [own, otherAfter, other]
  · rw [own, again]
  · rw [own, again]
    exact arena.modifyNode_modifyNode first _ _
  · rw [own]
  · rw [own]
    rfl
  · rw [one remade remarked, own]
  · rw [evaluateConditional_eq table selects, evaluate_eq table selects]

def judged : SymbolTable × Arena :=
  let guard := ((Node.ofKind "g" .guard).setAttr .test (.text "<")).setAttr .var1 (.text "$n")
  let switch := (Node.ofKind "s" .switch).setAttr .var1 (.text "$n")
  let stored := Arena.empty.allocAll
    [(Node.ofKind "n" .int).setAttr .value (.int 2), guard.setAttr .var2 (.int 3), switch,
      .ofKind "$n" .list]
  (SymbolTable.empty "t").define (stored.pushChild ⟨2, 0⟩ ⟨3, 0⟩).2 "n" ⟨0, 0⟩

theorem evaluations_independent_judged :
    Selects judged.2 ⟨1, 0⟩ ∧ Selects judged.2 ⟨2, 0⟩ ∧
      (evaluate (some judged.1) judged.2 ⟨1, 0⟩).result = some ⟨1, 0⟩ ∧
      (evaluate (some judged.1) judged.2 ⟨2, 0⟩).result = some ⟨3, 0⟩ ∧
      (evaluate (some judged.1) (evaluate (some judged.1) judged.2 ⟨1, 0⟩).arena ⟨2, 0⟩).result =
        some ⟨3, 0⟩ ∧
      (evaluate (some judged.1) (evaluate (some judged.1) judged.2 ⟨1, 0⟩).arena ⟨2, 0⟩).arena =
        (evaluate (some judged.1)
          (evaluate (some judged.1) judged.2 ⟨2, 0⟩).arena ⟨1, 0⟩).arena := by
  have guard : Selects judged.2 ⟨1, 0⟩ := .inl (by decide +kernel)
  have switch : Selects judged.2 ⟨2, 0⟩ := .inr (by decide +kernel)
  have second : (evaluate (some judged.1) judged.2 ⟨2, 0⟩).result = some ⟨3, 0⟩ := by
    decide +kernel
  rcases evaluations_independent (some judged.1) judged.2 guard switch with ⟨⟨-, after, comm⟩, -⟩
  exact ⟨guard, switch, by decide +kernel, second, after.trans second, comm⟩

end Evaluation
end RecordGraph
