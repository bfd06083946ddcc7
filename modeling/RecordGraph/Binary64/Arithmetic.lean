import RecordGraph.Binary64.Rounding

/-!
# Arithmetic on real values

Each operation is the exact one on units, rounded once. The remainder is exact and has the sign of
its left operand; of two operands the lesser or greater is taken, where not-a-number gives way to
the other one.
-/

namespace RecordGraph.Binary64

def add : Binary64 → Binary64 → Binary64
  | notANumber, _ | _, notANumber => notANumber
  | infinite left, infinite right => if left = right then infinite left else notANumber
  | infinite left, finite _ _ => infinite left
  | finite _ _, infinite right => infinite right
  | finite leftNegative left, finite rightNegative right =>
    ofUnits (leftNegative && rightNegative)
      (signed leftNegative left.units + signed rightNegative right.units)

def sub (left right : Binary64) : Binary64 :=
  left.add right.neg

def mul : Binary64 → Binary64 → Binary64
  | notANumber, _ | _, notANumber => notANumber
  | infinite left, infinite right => infinite (left ^^ right)
  | infinite leftNegative, finite rightNegative right =>
    if right.significand = 0 then notANumber else infinite (leftNegative ^^ rightNegative)
  | finite leftNegative left, infinite rightNegative =>
    if left.significand = 0 then notANumber else infinite (leftNegative ^^ rightNegative)
  | finite leftNegative left, finite rightNegative right =>
    ofQuotient (leftNegative ^^ rightNegative) (left.units * right.units) Magnitude.unitsPerOne

def div : Binary64 → Binary64 → Binary64
  | notANumber, _ | _, notANumber => notANumber
  | infinite _, infinite _ => notANumber
  | infinite leftNegative, finite rightNegative _ => infinite (leftNegative ^^ rightNegative)
  | finite leftNegative _, infinite rightNegative => finite (leftNegative ^^ rightNegative) .zero
  | finite leftNegative left, finite rightNegative right =>
    if right.significand = 0 then
      if left.significand = 0 then notANumber else infinite (leftNegative ^^ rightNegative)
    else
      ofQuotient (leftNegative ^^ rightNegative) (left.units * Magnitude.unitsPerOne) right.units

def rem : Binary64 → Binary64 → Binary64
  | notANumber, _ | _, notANumber => notANumber
  | infinite _, _ => notANumber
  | finite negative left, infinite _ => finite negative left
  | finite negative left, finite _ right =>
    if right.significand = 0 then notANumber
    else ofQuotient negative (left.units % right.units) 1

def min (left right : Binary64) : Binary64 :=
  if left.isNaN then right
  else if right.isNaN then left
  else if right.compare? left = some .lt then right else left

def max (left right : Binary64) : Binary64 :=
  if left.isNaN then right
  else if right.isNaN then left
  else if right.compare? left = some .gt then right else left

def truncate (least greatest : Int) : Binary64 → Int
  | notANumber => 0
  | infinite negative => if negative then least else greatest
  | finite negative magnitude =>
    Max.max least (Min.min greatest (signed negative (magnitude.units / Magnitude.unitsPerOne)))

end RecordGraph.Binary64
