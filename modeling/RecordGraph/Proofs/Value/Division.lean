import Mathlib.Data.Int.ModEq
import RecordGraph.Proofs.Value.Saturation
import RecordGraph.Value.Division

/-!
# Divisions at which a processor stops

A truncated quotient of two integers of 64 bits fits into 64 bits again, unless the least integer is
divided by minus one. The quotient and the remainder modulo `2 ^ 64` avoid this one division and the
divisor of zero, so the processor never stops, and they belong together as quotient and remainder do
for every divisor but zero.
-/

namespace RecordGraph

theorem toInt_ne_zero {number : Int64} (nonzero : number ≠ 0) : number.toInt ≠ 0 := fun zero =>
  nonzero (Int64.toInt_inj.mp zero)

theorem natAbs_tdiv_le (left right : Int) (large : 2 ≤ right.natAbs) :
    (left.tdiv right).natAbs ≤ left.natAbs / 2 := by
  rw [Int.natAbs_tdiv]
  exact Nat.div_le_div_left large (by decide)

theorem fitInt?_tdiv_eq_none_iff (left : Int64) {right : Int64} (nonzero : right ≠ 0) :
    fitInt? (left.toInt.tdiv right.toInt) = none ↔ left = Int64.minValue ∧ right = -1 := by
  have bounds := toInt_bounds left
  have known := toInt_ne_zero nonzero
  rw [fitInt?_eq_none_iff, ← Int64.toInt_inj (x := left), ← Int64.toInt_inj (x := right)]
  rw [leastInt_eq, greatestInt_eq] at bounds ⊢
  change _ ↔ left.toInt = -9223372036854775808 ∧ right.toInt = -1
  by_cases one : right.toInt = 1
  · rw [one, Int.tdiv_one]
    omega
  · by_cases minusOne : right.toInt = -1
    · rw [minusOne, Int.tdiv_neg, Int.tdiv_one]
      omega
    · have half := natAbs_tdiv_le left.toInt right.toInt (by omega)
      omega

theorem processorQuotient?_eq_none_iff {left right : Int64} :
    processorQuotient? left right = none ↔
      right = 0 ∨ left = Int64.minValue ∧ right = -1 := by
  unfold processorQuotient?
  by_cases zero : right = 0
  · simp [zero]
  · rw [if_neg zero, fitInt?_tdiv_eq_none_iff left zero]
    simp [zero]

theorem processorQuotient?_eq_some_iff {left right quotient : Int64} :
    processorQuotient? left right = some quotient ↔
      right ≠ 0 ∧ quotient.toInt = left.toInt.tdiv right.toInt := by
  unfold processorQuotient?
  by_cases zero : right = 0
  · simp [zero]
  · rw [if_neg zero, fitInt?_eq_some_iff]
    simp [zero]

theorem div_eq_ofInt (left right : Int64) :
    left / right = Int64.ofInt (left.toInt.tdiv right.toInt) := by
  rw [← Int64.toInt_inj, Int64.toInt_div, Int64.toInt_ofInt]

theorem mod_eq_ofInt (left right : Int64) :
    left % right = Int64.ofInt (left.toInt.tmod right.toInt) := by
  rw [← Int64.toInt_mod, Int64.ofInt_toInt]

theorem wrappedQuotient?_eq (left : Int64) {right : Int64} (nonzero : right ≠ 0) :
    wrappedQuotient? left right = some (left / right) := by
  unfold wrappedQuotient?
  split
  · rename_i corner
    rw [corner.1, corner.2]
    rfl
  · rename_i fits
    cases formed : processorQuotient? left right with
    | none =>
      rcases processorQuotient?_eq_none_iff.mp formed with zero | corner
      · exact absurd zero nonzero
      · exact absurd corner fits
    | some quotient =>
      rw [div_eq_ofInt, ← (processorQuotient?_eq_some_iff.mp formed).2, Int64.ofInt_toInt]

theorem wrappedRemainder?_eq (left : Int64) {right : Int64} (nonzero : right ≠ 0) :
    wrappedRemainder? left right = some (left % right) := by
  unfold wrappedRemainder?
  split
  · rename_i minusOne
    rw [mod_eq_ofInt, minusOne]
    change _ = some (Int64.ofInt (left.toInt.tmod (-1)))
    rw [Int.tmod_neg, Int.tmod_one]
    rfl
  · rename_i other
    rw [processorRemainder?, mod_eq_ofInt]
    cases formed : processorQuotient? left right with
    | none =>
      rcases processorQuotient?_eq_none_iff.mp formed with zero | corner
      · exact absurd zero nonzero
      · exact absurd corner.2 other
    | some quotient => rfl

theorem Operator.onProcessor?_eq (operator : Operator) (left right : Int64) :
    operator.onProcessor? left right = some (operator.onInts left right) := by
  cases operator with
  | div =>
    simp only [onProcessor?, onInts]
    split
    · rfl
    · rename_i nonzero
      rw [wrappedQuotient?_eq left nonzero, Option.map_some]
  | rem =>
    simp only [onProcessor?, onInts]
    split
    · rfl
    · rename_i nonzero
      rw [wrappedRemainder?_eq left nonzero, Option.map_some]
  | _ => rfl

/-- Quotient and remainder of two integers of 64 bits. Only the product may leave the range. -/
structure Divided (left right quotient remainder : Int64) : Prop where
  recombined : quotient.toInt * right.toInt + remainder.toInt ≡ left.toInt [ZMOD 2 ^ 64]
  smaller : remainder.toInt.natAbs < right.toInt.natAbs
  sign : remainder = 0 ∨ remainder.toInt.sign = left.toInt.sign

theorem divided (left : Int64) {right : Int64} (nonzero : right ≠ 0) :
    Divided left right (left / right) (left % right) where
  recombined := by
    have quotient : (left / right).toInt ≡ left.toInt.tdiv right.toInt [ZMOD 2 ^ 64] := by
      rw [Int64.toInt_div]
      exact Int.bmod_emod
    calc (left / right).toInt * right.toInt + (left % right).toInt
      _ ≡ left.toInt.tdiv right.toInt * right.toInt + (left % right).toInt [ZMOD 2 ^ 64] :=
        (quotient.mul_right _).add_right _
      _ = left.toInt := by rw [Int64.toInt_mod, Int.tdiv_mul_add_tmod]
  smaller := by
    rw [Int64.toInt_mod, Int.natAbs_tmod]
    exact Nat.mod_lt _ (Int.natAbs_pos.mpr (toInt_ne_zero nonzero))
  sign := by
    have sign := Int.sign_tmod left.toInt right.toInt
    rw [← Int64.toInt_mod] at sign
    split at sign
    · exact .inl (Int64.toInt_inj.mp (Int.sign_eq_zero_iff_zero.mp sign))
    · exact .inr sign

end RecordGraph
