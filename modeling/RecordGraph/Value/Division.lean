import RecordGraph.Value.Accumulator
import RecordGraph.Value.Arithmetic

/-!
# Division by a processor

A processor stops the program where a quotient has no place in 64 bits: at a divisor of zero, and
at the least integer over minus one. It forms the remainder together with the quotient and stops
there too. Arithmetic on values keeps clear of these divisions. A divisor of zero is refused before,
and minus one needs no division.
-/

namespace RecordGraph

def processorQuotient? (left right : Int64) : Option Int64 :=
  if right = 0 then none else fitInt? (left.toInt.tdiv right.toInt)

def processorRemainder? (left right : Int64) : Option Int64 :=
  (processorQuotient? left right).map fun _ => Int64.ofInt (left.toInt.tmod right.toInt)

def wrappedQuotient? (left right : Int64) : Option Int64 :=
  if left = Int64.minValue ∧ right = -1 then some left else processorQuotient? left right

def wrappedRemainder? (left right : Int64) : Option Int64 :=
  if right = -1 then some 0 else processorRemainder? left right

def Operator.onProcessor? (operator : Operator) (left right : Int64) :
    Option (Except ArithmeticError Int64) :=
  match operator with
  | div =>
    if right = 0 then some (.error .divisionByZero)
    else (wrappedQuotient? left right).map .ok
  | rem =>
    if right = 0 then some (.error .moduloByZero)
    else (wrappedRemainder? left right).map .ok
  | operator => some (operator.onInts left right)

def Value.onProcessor? (operator : Operator) (left right : Value) :
    Option (Except ArithmeticError Value) :=
  match left.toNumber, right.toNumber with
  | .ok (.int left), .ok (.int right) => (operator.onProcessor? left right).map (·.map int)
  | .ok left, .ok right => some ((operator.onReals left.toReal right.toReal).map real)
  | .ok _, .error error => some (.error error)
  | .error error, _ => some (.error error)

end RecordGraph
