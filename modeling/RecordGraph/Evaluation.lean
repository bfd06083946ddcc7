import RecordGraph.SymbolTable.Access
import RecordGraph.Value.Arithmetic

/-!
# Control nodes

Three kinds of node are evaluated. A *guard* compares two operands and selects its own child list
if the comparison holds. A *switch* selects the child whose name matches its operand. An *expr*
applies an operator to its operands and stores the result. An operand that begins with `$` is the
value of a path.

A control node that cannot be evaluated selects nothing and is marked as failed; the mark is taken
back when an evaluation succeeds.
-/

namespace RecordGraph

inductive EvaluationError where
  | missingAttr (name : String)
  | noAttrs
  | noChildren
  | unknownTest (name : String)
  | unknownOperator (name : String)
  | absentOperand (text : String)
  | noDestination
  | noSymbolTable
  | storeFailed (path : String)
  | arithmetic (cause : ArithmeticError)
deriving DecidableEq, Repr

def EvaluationError.message : EvaluationError → String
  | missingAttr name => "missing `" ++ name ++ "` attribute"
  | noAttrs => "node has no attribute list"
  | noChildren => "node has no child list"
  | unknownTest name => "unknown comparison `" ++ name ++ "`"
  | unknownOperator name => "unknown operator `" ++ name ++ "`"
  | absentOperand text => "operand `" ++ text ++ "` is absent"
  | noDestination => "no destination for result"
  | noSymbolTable => "no symbol table to store the result in"
  | storeFailed path => "cannot store result at `" ++ path ++ "`"
  | arithmetic cause => cause.message

inductive Failure where
  | path (cause : Path.Error)
  | evaluation (cause : EvaluationError)
  | expansionTooDeep
deriving DecidableEq, Repr

def Failure.message : Failure → String
  | path cause => cause.message
  | evaluation cause => cause.message
  | expansionTooDeep => "expansion too deep, skipping"

namespace Evaluation

abbrev Inquiry := EStateM EvaluationError (List Failure)

def pathOf? (raw : Value) : Option String :=
  match raw with
  | .text text =>
    match text.toList with
    | '$' :: path => some (String.ofList path)
    | _ => none
  | _ => none

def operandValue (table : Option SymbolTable) (arena : Arena) (raw : Value) : Value :=
  match pathOf? raw, table with
  | some path, some table => table.query arena path
  | _, _ => raw

def operandFailures (table : Option SymbolTable) (arena : Arena) (raw : Value) : List Failure :=
  match pathOf? raw, table with
  | some path, some table => (table.failuresOf arena path).map .path
  | _, _ => []

section Control

variable (table : Option SymbolTable) (arena : Arena)

def operand (raw : Value) : Inquiry Value := do
  modify (· ++ operandFailures table arena raw)
  return operandValue table arena raw

def controlAttrs (node : NodeId) : Inquiry AttrList :=
  match (arena.node? node).bind (·.attrs) with
  | some attrs => pure attrs
  | none => throw .noAttrs

def required (attrs : AttrList) (id : AttrId) (name : String) : Inquiry Value :=
  match attrs.find? id with
  | some raw => pure raw
  | none => throw (.missingAttr name)

def ownList (node : NodeId) : Option NodeId :=
  if arena.hasChildList node then some node else none

def guardList (node : NodeId) : Inquiry (Option NodeId) := do
  if !arena.hasChildList node then throw .noChildren
  let attrs ← controlAttrs arena node
  let test := (← operand table arena (← required attrs .test "TEST")).toText
  let left ← operand table arena (← required attrs .var1 "VAR1")
  let right ← operand table arena (← required attrs .var2 "VAR2")
  match Comparison.ofName? test with
  | none => throw (.unknownTest test)
  | some comparison => return if comparison.holds left right then some node else none

def caseLabel (case : NodeId) : String :=
  match table with
  | some table => table.fillIn arena (arena.name case)
  | none => arena.name case

def caseMatches (wanted : String) (case : NodeId) : Bool :=
  arena.name case == "" || caseLabel table arena case == "" ||
    caseLabel table arena case == wanted

def switchList (node : NodeId) : Inquiry (Option NodeId) := do
  if !arena.hasChildList node then throw .noChildren
  let attrs ← controlAttrs arena node
  let wanted := (← operand table arena (← required attrs .var1 "VAR1")).toText
  match (arena.children node).find? (caseMatches table arena wanted) with
  | some case => return ownList arena case
  | none => return none

/-! ## Expressions -/

def applyUnary (operator : String) (value : Value) : Except EvaluationError Value :=
  match operator with
  | "-" | "NEG" => value.neg.mapError .arithmetic
  | "LEN" => .ok value.textLength
  | "UPCASE" => .ok (.text (Text.upperCase value.toText))
  | "DOWNCASE" => .ok (.text (Text.lowerCase value.toText))
  | "=" | "EQ" | "SET" => .ok value
  | "PRINT" =>
    .ok (.text (match table with
      | some table => table.fillIn arena value.toText
      | none => value.toText))
  | _ => .error (.unknownOperator operator)

def applyBinary (operator : String) (left right : Value) : Except EvaluationError Value :=
  match operator with
  | "+" | "PLUS" => (left.binary .add right).mapError .arithmetic
  | "-" | "MINUS" => (left.binary .sub right).mapError .arithmetic
  | "*" | "TIMES" => (left.binary .mul right).mapError .arithmetic
  | "/" | "DIV" => (left.binary .div right).mapError .arithmetic
  | "%" | "MOD" => (left.binary .rem right).mapError .arithmetic
  | "MIN" => .ok (if Comparison.less.holds right left then right else left)
  | "MAX" => .ok (if Comparison.greater.holds right left then right else left)
  | _ => .error (.unknownOperator operator)

def applyOperator (operator : String) (left right : Value) : Except EvaluationError Value :=
  if right.isAbsent then applyUnary table arena operator left
  else applyBinary operator left right

def namedDestination (attrs : AttrList) : Inquiry (Option String) :=
  match attrs.find? .result with
  | none => return none
  | some raw => do
    let path := (← operand table arena raw).toText
    if path = "" then throw .noDestination else return some path

def destinationOf (named : Option String) (firstOperand : Value) : Inquiry String :=
  match named with
  | some path => pure path
  | none =>
    match pathOf? firstOperand with
    | some path => if path = "" then throw .noDestination else pure path
    | none => throw .noDestination

def raise (result : Except EvaluationError Value) : Inquiry Value :=
  match result with
  | .ok value => pure value
  | .error cause => throw cause

def expressionResult (node : NodeId) : Inquiry (String × Value) := do
  let attrs ← controlAttrs arena node
  let operator := Text.asciiUpperCase (← operand table arena (← required attrs .op "OP")).toText
  let named ← namedDestination table arena attrs
  let rawLeft ← required attrs .var1 "VAR1"
  let left ← operand table arena rawLeft
  if left.isAbsent then throw (.absentOperand rawLeft.toText)
  let destination ← destinationOf named rawLeft
  let right ←
    match attrs.find? .var2 with
    | some raw => operand table arena raw
    | none => pure .absent
  let result ← raise (applyOperator table arena operator left right)
  return (destination, result)

end Control

/-! ## Effects -/

structure Effect (α : Type) where
  result : α
  table : Option SymbolTable
  arena : Arena
  failures : List Failure

def runExpression (table : Option SymbolTable) (arena : Arena) (node : NodeId) :
    Effect (Except EvaluationError Unit) :=
  match (expressionResult table arena node).run [] with
  | .error cause failures => ⟨.error cause, table, arena, failures⟩
  | .ok (destination, value) failures =>
    match table with
    | none => ⟨.error .noSymbolTable, none, arena, failures⟩
    | some table =>
      let outcome := table.assign arena destination value
      let stored :=
        match outcome.result with
        | some _ => .ok ()
        | none => .error (.storeFailed destination)
      ⟨stored, some outcome.table, outcome.arena, failures ++ outcome.failures.map .path⟩

def settle (node : NodeId) (effect : Effect (Except EvaluationError α)) (default : α) : Effect α :=
  match effect with
  | ⟨.ok result, table, arena, failures⟩ =>
    ⟨result, table, arena.modifyNode node (·.unmark ⟨true, false⟩), failures⟩
  | ⟨.error cause, table, arena, failures⟩ =>
    ⟨default, table, arena.modifyNode node (·.mark ⟨true, false⟩),
      failures ++ [.evaluation cause]⟩

def reading (table : Option SymbolTable) (arena : Arena) (inquiry : Inquiry α) :
    Effect (Except EvaluationError α) :=
  match inquiry.run [] with
  | .ok result failures => ⟨.ok result, table, arena, failures⟩
  | .error cause failures => ⟨.error cause, table, arena, failures⟩

def evaluateConditional (table : Option SymbolTable) (arena : Arena) (node : NodeId) :
    Effect (Option NodeId) :=
  match arena.kind? node with
  | some .guard => settle node (reading table arena (guardList table arena node)) none
  | some .switch => settle node (reading table arena (switchList table arena node)) none
  | _ => ⟨ownList arena node, table, arena, []⟩

def evaluate (table : Option SymbolTable) (arena : Arena) (node : NodeId) :
    Effect (Option NodeId) :=
  match arena.kind? node with
  | some .expr =>
    let effect := settle node (runExpression table arena node) ()
    { effect with result := none }
  | _ => evaluateConditional table arena node

def evaluateExpression (table : SymbolTable) (arena : Arena) (node : NodeId) : Effect Bool :=
  match arena.kind? node with
  | some .expr =>
    let effect := runExpression (some table) arena node
    let stored := effect.result.isOk
    let effect := settle node effect ()
    { effect with result := stored }
  | _ => ⟨false, some table, arena, []⟩

end Evaluation
end RecordGraph
