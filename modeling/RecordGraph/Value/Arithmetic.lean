import RecordGraph.Value.Basic

/-!
# Arithmetic on values

An absent operand counts as the integer zero; texts and handles are no numbers. Two integers give
an integer, modulo `2 ^ 64`; a real operand makes the result a real. Division and remainder refuse a
right operand of zero.
-/

namespace RecordGraph

inductive Operator where
  | add
  | sub
  | mul
  | div
  | rem
  | min
  | max
deriving DecidableEq, Repr

inductive ArithmeticError where
  | notNumeric (variant : String)
  | divisionByZero
  | moduloByZero
deriving DecidableEq, Repr

def ArithmeticError.message : ArithmeticError → String
  | notNumeric variant => variant ++ " operand is not numeric"
  | divisionByZero => "division by zero"
  | moduloByZero => "modulo by zero"

inductive Number where
  | int (value : Int64)
  | real (value : Binary64)
deriving DecidableEq, Repr

namespace Number

def toReal : Number → Binary64
  | int value => .ofInt value.toInt
  | real value => value

end Number

namespace Operator

def all : List Operator := [add, sub, mul, div, rem, min, max]

def symbol : Operator → String
  | add => "+"
  | sub => "-"
  | mul => "*"
  | div => "/"
  | rem => "%"
  | min => "MIN"
  | max => "MAX"

def onInts (operator : Operator) (left right : Int64) : Except ArithmeticError Int64 :=
  match operator with
  | add => .ok (left + right)
  | sub => .ok (left - right)
  | mul => .ok (left * right)
  | div => if right = 0 then .error .divisionByZero else .ok (left / right)
  | rem => if right = 0 then .error .moduloByZero else .ok (left % right)
  | min => .ok (if right < left then right else left)
  | max => .ok (if left < right then right else left)

def onReals (operator : Operator) (left right : Binary64) : Except ArithmeticError Binary64 :=
  match operator with
  | add => .ok (left.add right)
  | sub => .ok (left.sub right)
  | mul => .ok (left.mul right)
  | div => if right.isZero then .error .divisionByZero else .ok (left.div right)
  | rem => if right.isZero then .error .moduloByZero else .ok (left.rem right)
  | min => .ok (left.min right)
  | max => .ok (left.max right)

end Operator

namespace Value

def toNumber : Value → Except ArithmeticError Number
  | absent => .ok (.int 0)
  | int value => .ok (.int value)
  | real value => .ok (.real value)
  | value => .error (.notNumeric value.variantName)

def binary (operator : Operator) (left right : Value) : Except ArithmeticError Value := do
  match ← left.toNumber, ← right.toNumber with
  | .int left, .int right => return int (← operator.onInts left right)
  | left, right => return real (← operator.onReals left.toReal right.toReal)

def neg (value : Value) : Except ArithmeticError Value := do
  match ← value.toNumber with
  | .int value => return int (-value)
  | .real value => return real value.neg

end Value
end RecordGraph
