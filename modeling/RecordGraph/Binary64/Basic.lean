import RecordGraph.Powers

/-!
# Binary floating point with 64 bits

A real value is not a number, infinite, or finite. A finite value is a sign and a magnitude, and a
magnitude is a whole number of *units*: the unit is the least positive value, `2 ^ (-1074)`, and the
magnitude is `significand * 2 ^ exponent` of them. The fields of `Magnitude` hold the one canonical
choice of these two, so equal fields and equal values are the same thing, apart from the two zeros.
All arithmetic goes through the exact number of units and is rounded once.
-/

namespace RecordGraph

structure Magnitude where
  significand : Nat
  exponent : Nat
  significand_lt : significand < pow2 53
  exponent_le : exponent ≤ 2045
  canonical : exponent = 0 ∨ pow2 52 ≤ significand
deriving DecidableEq, Repr

namespace Magnitude

def zero : Magnitude := ⟨0, 0, by decide, by decide, .inl rfl⟩

def units (magnitude : Magnitude) : Nat :=
  magnitude.significand * pow2 magnitude.exponent

def unitsPerOne : Nat := pow2 1074

end Magnitude

inductive Binary64 where
  | notANumber
  | infinite (negative : Bool)
  | finite (negative : Bool) (magnitude : Magnitude)
deriving DecidableEq, Repr

namespace Binary64

def zero : Binary64 := .finite false .zero

instance : Inhabited Binary64 := ⟨zero⟩

def isNaN : Binary64 → Bool
  | notANumber => true
  | _ => false

def isZero : Binary64 → Bool
  | finite _ magnitude => magnitude.significand == 0
  | _ => false

def signed (negative : Bool) (size : Nat) : Int :=
  if negative then -(size : Int) else size

/-- The position on the line of values, in units. Infinity stands at the first power of two above
every finite value, and not-a-number has no position. -/
def position? : Binary64 → Option Int
  | notANumber => none
  | infinite negative => some (signed negative (pow2 2098))
  | finite negative magnitude => some (signed negative magnitude.units)

def compare? (left right : Binary64) : Option Ordering :=
  match left.position?, right.position? with
  | some leftPosition, some rightPosition => some (compare leftPosition rightPosition)
  | _, _ => none

def neg : Binary64 → Binary64
  | notANumber => notANumber
  | infinite negative => infinite !negative
  | finite negative magnitude => finite (!negative) magnitude

end Binary64
end RecordGraph
