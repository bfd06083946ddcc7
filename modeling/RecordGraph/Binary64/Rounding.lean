import RecordGraph.Binary64.Basic

/-!
# Rounding to the nearest value

A quotient of natural numbers, taken as a number of units, is rounded to the nearest magnitude; a
tie goes to the even significand. What lies half a step or more above the greatest magnitude is
infinite.
-/

namespace RecordGraph

def roundHalfEven (numerator denominator : Nat) : Nat :=
  let quotient := numerator / denominator
  let remainder := numerator % denominator
  if denominator < 2 * remainder ∨ (denominator = 2 * remainder ∧ quotient % 2 = 1) then
    quotient + 1
  else quotient

theorem le_roundHalfEven (numerator denominator : Nat) :
    numerator / denominator ≤ roundHalfEven numerator denominator := by
  simp only [roundHalfEven]
  split <;> omega

@[simp] theorem roundHalfEven_one (numerator : Nat) : roundHalfEven numerator 1 = numerator := by
  simp [roundHalfEven, Nat.mod_one]

example : roundHalfEven 5 2 = 2 := rfl
example : roundHalfEven 7 2 = 4 := rfl

namespace Magnitude

def exponentFor (quotient : Nat) : Nat :=
  quotient.log2 - 52

theorem pow2_exponentFor_le {quotient : Nat} (positive : exponentFor quotient ≠ 0) :
    pow2 (exponentFor quotient + 52) ≤ quotient := by
  have nonzero : quotient ≠ 0 := by
    intro equal
    subst equal
    exact positive (by decide)
  have exponents : exponentFor quotient + 52 = quotient.log2 := by
    unfold exponentFor at positive ⊢
    omega
  rw [exponents]
  exact pow2_log2_le nonzero

def roundedAt (numerator denominator exponent : Nat) : Nat :=
  roundHalfEven numerator (denominator * pow2 exponent)

theorem le_roundedAt {numerator denominator : Nat}
    (positive : exponentFor (numerator / denominator) ≠ 0) :
    pow2 52 ≤ roundedAt numerator denominator (exponentFor (numerator / denominator)) := by
  refine Nat.le_trans ?_ (le_roundHalfEven _ _)
  rw [← Nat.div_div_eq_div_mul, Nat.le_div_iff_mul_le (pow2_pos _), ← pow2_add,
    Nat.add_comm]
  exact pow2_exponentFor_le positive

/-- The magnitude nearest to a quotient of units, or none beyond the greatest one. A carry out of
the significand moves the exponent up by one. -/
def ofQuotient? (numerator denominator : Nat) : Option Magnitude :=
  let exponent := exponentFor (numerator / denominator)
  let rounded := roundedAt numerator denominator exponent
  if small : rounded < pow2 53 then
    if fits : exponent ≤ 2045 then
      some ⟨rounded, exponent, small, fits,
        (Classical.em (exponent = 0)).imp_right fun positive => le_roundedAt positive⟩
    else none
  else
    if fits : exponent + 1 ≤ 2045 then
      some ⟨pow2 52, exponent + 1, by decide, fits, .inr (Nat.le_refl _)⟩
    else none

end Magnitude

namespace Binary64

def ofQuotient (negative : Bool) (numerator denominator : Nat) : Binary64 :=
  match Magnitude.ofQuotient? numerator denominator with
  | some magnitude => finite negative magnitude
  | none => infinite negative

def ofUnits (zeroNegative : Bool) (units : Int) : Binary64 :=
  ofQuotient (if units = 0 then zeroNegative else units < 0) units.natAbs 1

def ofInt (value : Int) : Binary64 :=
  ofUnits false (value * Magnitude.unitsPerOne)

end Binary64
end RecordGraph
