import RecordGraph.Binary64.Rounding
import RecordGraph.Text.Digits

/-!
# Reading decimal numerals

A numeral is a sign, digits with at most one point among or around them, and an exponent. Besides
numerals, three words are read whatever their case: `inf`, `infinity` and `nan`. A numeral is read
to the nearest value.
-/

namespace RecordGraph
open Text

structure Numeral where
  negative : Bool
  coefficient : Nat
  exponent : Int
deriving DecidableEq, Repr

def takeSign : List Char → Bool × List Char
  | '-' :: rest => (true, rest)
  | '+' :: rest => (false, rest)
  | characters => (false, characters)

namespace Numeral

/-- The size of an exponent. Once it has reached `65536`, which is far outside the range of the
format, further digits no longer count. -/
def exponentSize (digits : List Char) : Nat :=
  digits.foldl
    (fun size digit => if size < 65536 then 10 * size + digitValue digit else size) 0

/-- An exponent at the front of a text: the mark `e` or `E`, a sign and at least one digit. Without
all of these there is none, and nothing is taken. -/
def takeExponent (characters : List Char) : Int × List Char :=
  match characters with
  | [] => (0, [])
  | mark :: rest =>
    let (negative, unsigned) := takeSign rest
    let digits := unsigned.takeWhile isDigit
    if (mark = 'e' ∨ mark = 'E') ∧ digits ≠ [] then
      let size := exponentSize digits
      (if negative then -(size : Int) else size, unsigned.dropWhile isDigit)
    else (0, characters)

/-- A point and the digits after it; `whole` says whether digits came before. A point without a
digit on either side is not part of a numeral. -/
def takeFraction (whole : Bool) (characters : List Char) : List Char × List Char :=
  match characters with
  | '.' :: rest =>
    let digits := rest.takeWhile isDigit
    if whole ∨ digits ≠ [] then (digits, rest.dropWhile isDigit) else ([], characters)
  | _ => ([], characters)

def scan? (characters : List Char) : Option (Numeral × List Char) :=
  let (negative, unsigned) := takeSign characters
  let whole := unsigned.takeWhile isDigit
  let (fraction, afterFraction) := takeFraction (whole ≠ []) (unsigned.dropWhile isDigit)
  if whole = [] ∧ fraction = [] then none
  else
    let (exponent, rest) := takeExponent afterFraction
    some (⟨negative, longNumber (whole ++ fraction), exponent - fraction.length⟩, rest)

/-- The numeral is below every value that does not round to zero: its coefficient has so few bits
that the power of ten takes it below half a unit. -/
def vanishes (numeral : Numeral) : Bool :=
  numeral.coefficient == 0 ||
    numeral.coefficient.log2 + 1 + 1080 ≤ 3 * (-numeral.exponent).toNat

def toBinary64 (numeral : Numeral) : Binary64 :=
  if numeral.vanishes then .finite numeral.negative .zero
  else if 310 ≤ numeral.exponent then .infinite numeral.negative
  else
    .ofQuotient numeral.negative
      (numeral.coefficient * pow10 numeral.exponent.toNat * Magnitude.unitsPerOne)
      (pow10 (-numeral.exponent).toNat)

example : scan? ['1', '.', 'e', '5', 'x'] = some (⟨false, 1, 5⟩, ['x']) := by decide +kernel
example : scan? ['-', '.', '5', 'e'] = some (⟨true, 5, -1⟩, ['e']) := by decide +kernel
example : scan? ['.', 'e', '5'] = none := rfl

end Numeral

namespace Binary64

def ofWord? (characters : List Char) : Option Binary64 :=
  let (negative, unsigned) := takeSign characters
  match String.ofList (unsigned.map Char.toLower) with
  | "inf" | "infinity" => some (infinite negative)
  | "nan" => some notANumber
  | _ => none

def parse? (characters : List Char) : Option Binary64 :=
  match ofWord? characters with
  | some value => some value
  | none =>
    match Numeral.scan? characters with
    | some (numeral, []) => some numeral.toBinary64
    | _ => none

end Binary64
end RecordGraph
