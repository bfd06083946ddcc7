import RecordGraph.Binary64.Numeral

/-!
# Shortest decimal text of a real value

A finite value is written with the fewest digits that read back as the same value. On a decimal grid
the two neighbours of the value are tried by reading them; of two that read back the nearer is
taken, and of two equally near ones the greater. A grid with a neighbour that reads back is followed
by finer ones of the same kind, because the values that read back form an interval, so the coarsest
one is found by halving. Seventeen digits always suffice; the exact decimal expansion stands behind
them.

The point stands among the digits for sizes from `10 ^ (-4)` up to `10 ^ 16`, and at least one digit
follows it. Other sizes have one digit before the point and an exponent.
-/

namespace RecordGraph
open Text

structure Decimal where
  digits : List Char
  point : Int
deriving DecidableEq, Repr

namespace Decimal

def ofNumeral (numeral : Numeral) : Decimal :=
  let digits := decimalDigits numeral.coefficient
  ⟨(digits.reverse.dropWhile (· == '0')).reverse, digits.length + numeral.exponent⟩

def plainText (decimal : Decimal) : List Char :=
  if decimal.point ≤ 0 then
    '0' :: '.' :: (List.replicate (-decimal.point).toNat '0' ++ decimal.digits)
  else
    let place := decimal.point.toNat
    if decimal.digits.length ≤ place then
      decimal.digits ++ List.replicate (place - decimal.digits.length) '0' ++ ['.', '0']
    else decimal.digits.take place ++ '.' :: decimal.digits.drop place

def scientificText (decimal : Decimal) : List Char :=
  let exponent := 'e' :: decimalText (decimal.point - 1)
  match decimal.digits with
  | [] => '0' :: exponent
  | [digit] => digit :: exponent
  | digit :: digits => digit :: '.' :: (digits ++ exponent)

def text (decimal : Decimal) : List Char :=
  if -3 ≤ decimal.point ∧ decimal.point ≤ 16 then decimal.plainText else decimal.scientificText

example : text ⟨['1', '5'], 1⟩ = ['1', '.', '5'] := rfl
example : text ⟨['1'], 16⟩ = "1000000000000000.0".toList := by decide +kernel
example : text ⟨['1'], 17⟩ = ['1', 'e', '1', '6'] := by decide +kernel
example : text ⟨['1'], -3⟩ = "0.0001".toList := by decide +kernel

end Decimal

namespace Magnitude

def gridScale : Nat := 343

def gridNumerator (magnitude : Magnitude) : Nat :=
  magnitude.units * pow10 gridScale

def decimalLength (number : Nat) : Nat :=
  let least := number.log2 * 30103 / 100000
  if number < pow10 least then least
  else if number < pow10 (least + 1) then least + 1
  else least + 2

def gridDigits (magnitude : Magnitude) : Nat :=
  decimalLength (magnitude.gridNumerator / unitsPerOne)

def neighbours (magnitude : Magnitude) (dropped : Nat) : List Numeral :=
  let step := pow10 dropped * unitsPerOne
  let below := magnitude.gridNumerator / step
  let exponent : Int := (dropped : Int) - gridScale
  if 2 * magnitude.gridNumerator < (2 * below + 1) * step then
    [⟨false, below, exponent⟩, ⟨false, below + 1, exponent⟩]
  else [⟨false, below + 1, exponent⟩, ⟨false, below, exponent⟩]

def exactNumeral (magnitude : Magnitude) : Numeral :=
  ⟨false, magnitude.units * (pow10 1074 / unitsPerOne), -1074⟩

def readsBack (magnitude : Magnitude) (numeral : Numeral) : Bool :=
  numeral.toBinary64 == .finite false magnitude

def onGrid? (magnitude : Magnitude) (dropped : Nat) : Option Numeral :=
  (magnitude.neighbours dropped).find? magnitude.readsBack

/-- What the least number from `low` to `high` gives that gives anything, where every greater one
gives something too. Each round halves the range. -/
def leastGiving (give : Nat → Option α) : Nat → Nat → Nat → Option α
  | 0, _, high => give high
  | rounds + 1, low, high =>
    if high ≤ low then give high
    else
      let middle := (low + high) / 2
      if (give middle).isSome then leastGiving give rounds low middle
      else leastGiving give rounds (middle + 1) high

def shortest (magnitude : Magnitude) : Decimal :=
  let digits := magnitude.gridDigits
  let found := leastGiving (fun kept => magnitude.onGrid? (digits - kept)) 5 1 17
  .ofNumeral (found.getD magnitude.exactNumeral)

end Magnitude

namespace Binary64

def text : Binary64 → List Char
  | notANumber => ['N', 'a', 'N']
  | infinite negative => if negative then ['-', 'i', 'n', 'f'] else ['i', 'n', 'f']
  | finite negative magnitude =>
    let size := if magnitude.significand = 0 then ['0', '.', '0'] else magnitude.shortest.text
    if negative then '-' :: size else size

end Binary64
end RecordGraph
