import RecordGraph.Evaluation
import RecordGraph.Proofs.Path.Cursor

/-!
# What an expression computes

The result of an expression and the place for it are found step by step, and each step may fail. For
each of them it is said here what it comes to, whatever failures of paths are on record. So an
expression comes to a result just if its attributes and its operands are there and its operator
applies to them, and the destination is the one that its attributes name.
-/

namespace RecordGraph.Evaluation

def Inquiry.Finds (inquiry : Inquiry α) (holds : α → Prop) : Prop :=
  ∀ record result, (∃ later, inquiry record = .ok result later) ↔ holds result

namespace Inquiry

theorem Finds.congr {inquiry : Inquiry α} {holds other : α → Prop} (finds : inquiry.Finds holds)
    (same : ∀ result, holds result ↔ other result) : inquiry.Finds other :=
  fun record result => (finds record result).trans (same result)

theorem finds_bind {inquiry : Inquiry α} {next : α → Inquiry β} {first : α → Prop}
    {second : α → β → Prop} (start : inquiry.Finds first)
    (rest : ∀ result, (next result).Finds (second result)) :
    (inquiry >>= next).Finds fun ending => ∃ result, first result ∧ second result ending := by
  intro record ending
  constructor
  · rintro ⟨later, ran⟩
    rcases bind_eq_ok_iff.mp ran with ⟨result, middle, began, ended⟩
    exact ⟨result, (start record result).mp ⟨middle, began⟩,
      (rest result middle ending).mp ⟨later, ended⟩⟩
  · rintro ⟨result, one, two⟩
    rcases (start record result).mpr one with ⟨middle, began⟩
    rcases (rest result middle ending).mpr two with ⟨later, ended⟩
    exact ⟨later, bind_eq_ok_iff.mpr ⟨result, middle, began, ended⟩⟩

theorem finds_pure (result : α) : (pure result : Inquiry α).Finds (· = result) := by
  intro record ending
  constructor
  · rintro ⟨later, ⟨⟩⟩
    rfl
  · rintro rfl
    exact ⟨record, rfl⟩

theorem finds_throw (cause : EvaluationError) : (throw cause : Inquiry α).Finds fun _ => False := by
  intro record ending
  constructor
  · rintro ⟨later, ⟨⟩⟩
  · exact False.elim

theorem finds_throw_bind (cause : EvaluationError) (next : α → Inquiry β) :
    (throw cause >>= next).Finds fun _ => False := by
  intro record ending
  constructor
  · rintro ⟨later, ⟨⟩⟩
  · exact False.elim

end Inquiry

open Inquiry

section

variable (table : Option SymbolTable) (arena : Arena)

theorem finds_operand (raw : Value) :
    (operand table arena raw).Finds (· = operandValue table arena raw) := by
  intro record value
  constructor
  · rintro ⟨later, ⟨⟩⟩
    rfl
  · rintro rfl
    exact ⟨_, rfl⟩

theorem finds_controlAttrs (node : NodeId) : (controlAttrs arena node).Finds fun attrs =>
    (arena.node? node).bind (·.attrs) = some attrs := by
  unfold controlAttrs
  split
  · rename_i found
    exact (finds_pure _).congr fun attrs => by rw [found, Option.some.injEq, eq_comm]
  · rename_i none
    exact (finds_throw _).congr fun attrs => by simp [none]

theorem finds_required (attrs : AttrList) (id : AttrId) (name : String) :
    (required attrs id name).Finds fun raw => attrs.find? id = some raw := by
  unfold required
  split
  · rename_i found
    exact (finds_pure _).congr fun attrs => by rw [found, Option.some.injEq, eq_comm]
  · rename_i none
    exact (finds_throw _).congr fun attrs => by simp [none]

theorem finds_raise (result : Except EvaluationError Value) :
    (raise result).Finds fun value => result = .ok value := by
  unfold raise
  split
  · exact (finds_pure _).congr fun value => by rw [Except.ok.injEq, eq_comm]
  · exact (finds_throw _).congr fun value => by simp

theorem finds_namedDestination (attrs : AttrList) :
    (namedDestination table arena attrs).Finds fun named =>
      (attrs.find? .result = none ∧ named = none) ∨
      ∃ raw, attrs.find? .result = some raw ∧ (operandValue table arena raw).toText ≠ "" ∧
        named = some (operandValue table arena raw).toText := by
  unfold namedDestination
  split
  · rename_i none
    exact (finds_pure _).congr fun named => by simp [none]
  · rename_i raw found
    have chosen (value : Value) :
        (if value.toText = "" then throw .noDestination
          else pure (some value.toText) : Inquiry (Option String)).Finds
            fun named => value.toText ≠ "" ∧ named = some value.toText := by
      split
      · rename_i empty
        exact (finds_throw _).congr fun named => by simp [empty]
      · rename_i present
        exact (finds_pure _).congr fun named => by simp [present]
    exact (finds_bind (finds_operand table arena raw) chosen).congr fun named => by simp [found]

theorem finds_destinationOf (named : Option String) (first : Value) :
    (destinationOf named first).Finds fun path =>
      named = some path ∨ named = none ∧ path ≠ "" ∧ pathOf? first = some path := by
  unfold destinationOf
  split
  · exact (finds_pure _).congr fun path => by simp [eq_comm]
  · split
    · rename_i given
      split
      · rename_i empty
        refine (finds_throw _).congr fun other => ?_
        simp only [given, empty]
        simp +contextual
      · rename_i present
        refine (finds_pure _).congr fun other => ?_
        simp only [given]
        constructor
        · rintro rfl
          simp [present]
        · simp +contextual
    · rename_i none
      exact (finds_throw _).congr fun other => by simp [none]

end

/-! ## What an expression computes -/

section

variable (table : Option SymbolTable) (arena : Arena)

def secondOperand (attrs : AttrList) : Value :=
  ((attrs.find? .var2).map (operandValue table arena)).getD .absent

def Destined (attrs : AttrList) (destination : String) : Prop :=
  destination ≠ "" ∧
    match attrs.find? .result with
    | some raw => (operandValue table arena raw).toText = destination
    | none => (attrs.find? .var1).bind pathOf? = some destination

/-- The operator of an expression, applied to the operands, gives the value, which is to be stored
at the destination. The first operand has to be there. -/
def Computes (node : NodeId) (destination : String) (value : Value) : Prop :=
  ∃ attrs operator first, (arena.node? node).bind (·.attrs) = some attrs ∧
    attrs.find? .op = some operator ∧ attrs.find? .var1 = some first ∧
    Destined table arena attrs destination ∧
    (operandValue table arena first).isAbsent = false ∧
    applyOperator table arena (Text.asciiUpperCase (operandValue table arena operator).toText)
      (operandValue table arena first) (secondOperand table arena attrs) = .ok value

theorem finds_result (destination : String) (result : Except EvaluationError Value) :
    (do let value ← raise result; return (destination, value) : Inquiry (String × Value)).Finds
      fun found => found.1 = destination ∧ result = .ok found.2 := by
  refine (finds_bind (finds_raise result) fun value => finds_pure (destination, value)).congr ?_
  rintro ⟨path, value⟩
  simp only [Prod.mk.injEq]
  constructor
  · rintro ⟨_, given, rfl, rfl⟩
    exact ⟨rfl, given⟩
  · rintro ⟨rfl, given⟩
    exact ⟨value, given, rfl, rfl⟩

/-- The second operand is looked at once the first one and the destination are there. -/
theorem finds_applied (attrs : AttrList) (operator destination : String) (left : Value) :
    (do
      let right ←
        match attrs.find? .var2 with
        | some raw => operand table arena raw
        | none => pure .absent
      let result ← raise (applyOperator table arena operator left right)
      return (destination, result) : Inquiry (String × Value)).Finds fun found =>
        found.1 = destination ∧
          applyOperator table arena operator left (secondOperand table arena attrs) =
            .ok found.2 := by
  have onward (right : Value) :=
    finds_result destination (applyOperator table arena operator left right)
  unfold secondOperand
  cases attrs.find? .var2 with
  | none => exact (finds_bind (finds_pure .absent) onward).congr fun _ => exists_eq_left
  | some raw =>
    exact (finds_bind (finds_operand table arena raw) onward).congr fun _ => exists_eq_left

theorem finds_stored (attrs : AttrList) (operator : String) (named : Option String)
    (first left : Value) :
    (do
      if left.isAbsent then throw (.absentOperand first.toText)
      let destination ← destinationOf named first
      let right ←
        match attrs.find? .var2 with
        | some raw => operand table arena raw
        | none => pure .absent
      let result ← raise (applyOperator table arena operator left right)
      return (destination, result) : Inquiry (String × Value)).Finds fun found =>
        left.isAbsent = false ∧
        (named = some found.1 ∨ named = none ∧ found.1 ≠ "" ∧ pathOf? first = some found.1) ∧
        applyOperator table arena operator left (secondOperand table arena attrs) =
          .ok found.2 := by
  simp only
  split
  · rename_i absent
    exact (finds_throw_bind _ _).congr fun found => by simp [absent]
  · rename_i present
    refine (finds_bind (finds_destinationOf named first) fun destination =>
      finds_applied table arena attrs operator destination left).congr fun found => ?_
    constructor
    · rintro ⟨destination, decided, rfl, applied⟩
      exact ⟨Bool.eq_false_iff.mpr present, decided, applied⟩
    · rintro ⟨-, decided, applied⟩
      exact ⟨found.1, decided, rfl, applied⟩

theorem finds_expressionResult (node : NodeId) :
    (expressionResult table arena node).Finds fun found =>
      Computes table arena node found.1 found.2 := by
  unfold expressionResult
  refine (finds_bind (finds_controlAttrs arena node) fun attrs =>
    finds_bind (finds_required attrs .op "OP") fun operator =>
    finds_bind (finds_operand table arena operator) fun value =>
    finds_bind (finds_namedDestination table arena attrs) fun named =>
    finds_bind (finds_required attrs .var1 "VAR1") fun first =>
    finds_bind (finds_operand table arena first) fun left =>
    finds_stored table arena attrs (Text.asciiUpperCase value.toText) named first left).congr
      fun found => ?_
  rcases found with ⟨destination, value⟩
  constructor
  · rintro ⟨attrs, given, operator, op, _, rfl, named, named?, first, var1, _, rfl, present, chosen,
      applied⟩
    refine ⟨attrs, operator, first, given, op, var1, ?_, present, applied⟩
    rcases named? with ⟨none, rfl⟩ | ⟨raw, found, some, same⟩
    · rcases chosen with ⟨⟨⟩⟩ | ⟨-, some, path⟩
      refine ⟨some, ?_⟩
      rw [none]
      simp only [var1, Option.bind_some]
      exact path
    · have text : (operandValue table arena raw).toText = destination := by
        rcases chosen with chosen | ⟨none, -⟩
        · exact Option.some.inj (same.symm.trans chosen)
        · cases same.symm.trans none
      refine ⟨text ▸ some, ?_⟩
      rw [found]
      exact text
  · rintro ⟨attrs, operator, first, given, op, var1, destined, present, applied⟩
    refine ⟨attrs, given, operator, op, _, rfl, ?_⟩
    rcases destined with ⟨some, chosen⟩
    cases found : attrs.find? .result with
    | none =>
      rw [found] at chosen
      simp only [var1, Option.bind_some] at chosen
      exact ⟨none, .inl ⟨rfl, rfl⟩, first, var1, _, rfl, present, .inr ⟨rfl, some, chosen⟩, applied⟩
    | some raw =>
      rw [found] at chosen
      simp only at chosen
      subst chosen
      exact ⟨_, .inr ⟨raw, rfl, some, rfl⟩, first, var1, _, rfl, present, .inl rfl, applied⟩

instance (node : NodeId) (destination : String) (value : Value) :
    Decidable (Computes table arena node destination value) :=
  have computed := finds_expressionResult table arena node [] (destination, value)
  match ran : expressionResult table arena node [] with
  | .ok found later => decidable_of_iff (found = (destination, value)) <|
      Iff.trans (by simp [ran]) computed
  | .error cause later => .isFalse fun computes => by
      rcases computed.mpr computes with ⟨later, found⟩
      cases ran.symm.trans found

end

end RecordGraph.Evaluation
