import RecordGraph.Value.Reading

/-!
# Integers built in 64 bits

The integer at the front of a text can also be built digit by digit in 64 bits. Every product and
every sum is looked at before it is kept, and the digit that leaves the range ends the reading at
the end of the range. Below zero the digits are taken off instead of added, because the size of the
least integer is no integer of 64 bits itself.
-/

namespace RecordGraph
open Text

def fitInt? (value : Int) : Option Int64 :=
  if leastInt ≤ value ∧ value ≤ greatestInt then some (Int64.ofInt value) else none

def appendDigit? (negative : Bool) (number : Int64) (digit : Char) : Option Int64 := do
  let product ← fitInt? (number.toInt * 10)
  if negative then fitInt? (product.toInt - digitValue digit)
  else fitInt? (product.toInt + digitValue digit)

def rangeEnd (negative : Bool) : Int64 :=
  Int64.ofInt (if negative then leastInt else greatestInt)

def accumulate (negative : Bool) (number : Int64) : List Char → Int64
  | [] => number
  | character :: rest =>
    if isDigit character then
      match appendDigit? negative number character with
      | some next => accumulate negative next rest
      | none => rangeEnd negative
    else number

def accumulatedPrefix (characters : List Char) : Int64 :=
  let (negative, unsigned) := takeSign (dropBlanks characters)
  accumulate negative 0 unsigned

example : accumulatedPrefix "-9223372036854775808x".toList = -9223372036854775808 := by
  decide +kernel
example : accumulatedPrefix "9223372036854775808".toList = 9223372036854775807 := by decide +kernel

end RecordGraph
