/-!
# Decimal and hexadecimal digits

Natural numbers as digit texts: reading takes the digits of a text from left to right, and writing
gives the digits without leading zeros.

A row of digits may be very long. Two more readers give the same number in less time: one that stops
counting at a bound (`boundedNumber_eq`), and one that joins neighbouring digits to digits of a
greater base until one digit is left (`longNumber_eq`).
-/

namespace RecordGraph.Text

def isDigit (character : Char) : Bool :=
  '0' ≤ character && character ≤ '9'

def digitValue (digit : Char) : Nat :=
  digit.toNat - '0'.toNat

def numberFrom (leading : Nat) (digits : List Char) : Nat :=
  digits.foldl (fun number digit => 10 * number + digitValue digit) leading

def number (digits : List Char) : Nat :=
  numberFrom 0 digits

def boundedNumber (bound : Nat) (digits : List Char) : Nat :=
  digits.foldl (fun number digit => min bound (10 * number + digitValue digit)) 0

def valueIn (base : Nat) (digits : List Nat) : Nat :=
  digits.foldr (fun digit number => digit + base * number) 0

def joinPairs (base : Nat) : List Nat → List Nat
  | low :: high :: digits => (low + base * high) :: joinPairs base digits
  | digits => digits

theorem length_joinPairs_le (base : Nat) (digits : List Nat) :
    2 * (joinPairs base digits).length ≤ digits.length + 1 := by
  fun_induction joinPairs base digits with
  | case1 low high digits induction =>
    simp only [List.length_cons]
    omega
  | case2 digits distinct =>
    match digits with
    | [] => simp
    | [_] => simp
    | low :: high :: rest => exact absurd rfl (distinct low high rest)

theorem valueIn_joinPairs (base : Nat) (digits : List Nat) :
    valueIn (base * base) (joinPairs base digits) = valueIn base digits := by
  fun_induction joinPairs base digits with
  | case1 low high digits induction =>
    simp only [valueIn, List.foldr_cons] at induction ⊢
    rw [induction, Nat.mul_add, Nat.mul_assoc, Nat.add_assoc]
  | case2 digits distinct =>
    match digits with
    | [] => rfl
    | [_] => simp [valueIn]
    | low :: high :: rest => exact absurd rfl (distinct low high rest)

def joinAll (base : Nat) : List Nat → Nat
  | [] => 0
  | [digit] => digit
  | low :: high :: digits => joinAll (base * base) (joinPairs base (low :: high :: digits))
termination_by digits => digits.length
decreasing_by
  have shorter := length_joinPairs_le base (low :: high :: digits)
  simp only [List.length_cons] at shorter ⊢
  omega

theorem joinAll_eq (base : Nat) (digits : List Nat) :
    joinAll base digits = valueIn base digits := by
  fun_induction joinAll base digits with
  | case1 => rfl
  | case2 => simp [valueIn]
  | case3 base low high digits induction => rw [induction, valueIn_joinPairs]

def longNumber (digits : List Char) : Nat :=
  joinAll 10 (digits.reverse.map digitValue)

def decimalDigits (value : Nat) : List Char :=
  Nat.toDigits 10 value

def decimalText (value : Int) : List Char :=
  if value < 0 then '-' :: decimalDigits value.natAbs else decimalDigits value.natAbs

def hexText (value : Nat) : List Char :=
  '0' :: 'x' :: Nat.toDigits 16 value

theorem boundedNumber_eq (bound : Nat) (digits : List Char) :
    boundedNumber bound digits = min bound (number digits) := by
  have general (leading : Nat) :
      digits.foldl (fun number digit => min bound (10 * number + digitValue digit))
          (min bound leading) =
        min bound (numberFrom leading digits) := by
    induction digits generalizing leading with
    | nil => rfl
    | cons digit digits induction =>
      have step : min bound (10 * min bound leading + digitValue digit) =
          min bound (10 * leading + digitValue digit) := by omega
      simp only [List.foldl_cons, step, induction]
      rfl
  simpa [boundedNumber, number] using general 0

theorem longNumber_eq (digits : List Char) : longNumber digits = number digits := by
  simp only [longNumber, joinAll_eq, valueIn, List.foldr_map, List.foldr_reverse, number,
    numberFrom, Nat.add_comm]

example : number ['0', '4', '2'] = 42 := rfl

example : boundedNumber 20 ['0', '4', '2'] = 20 := rfl

example : joinPairs 10 [2, 4, 1] = [42, 1] := rfl

example : decimalText (-7) = ['-', '7'] := by decide +kernel

example : hexText 255 = ['0', 'x', 'f', 'f'] := by decide +kernel

end RecordGraph.Text
