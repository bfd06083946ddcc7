import RecordGraph.Binary64.Numeral

/-!
# Rounding depends on the quotient alone

The magnitude nearest to a quotient is the same however the quotient is written. A magnitude that is
a quotient itself is not changed, and what is far below the least magnitude or above the greatest
one goes to zero or has no magnitude.

The shortcuts that reading takes for numerals far outside the range are sound, so a numeral is read
as its quotient is rounded, and moving powers of ten between its two parts makes no difference.
-/

namespace RecordGraph

@[simp] theorem pow2_zero : pow2 0 = 1 := rfl

theorem pow2_succ (exponent : Nat) : pow2 (exponent + 1) = 2 * pow2 exponent :=
  Nat.pow_succ'

theorem le_log2_of_pow2_le {exponent number : Nat} (large : pow2 exponent ≤ number) :
    exponent ≤ number.log2 := by
  have positive := pow2_pos exponent
  exact (Nat.le_log2 (by omega)).mpr large

theorem log2_le_of_lt_pow2 {exponent number : Nat} (small : number < pow2 exponent) :
    number.log2 ≤ exponent := by
  by_cases empty : number = 0
  · simp [empty]
  · exact Nat.le_of_lt ((Nat.log2_lt empty).mpr small)

@[simp] theorem pow10_zero : pow10 0 = 1 := rfl

theorem pow10_add (left right : Nat) : pow10 (left + right) = pow10 left * pow10 right :=
  Nat.pow_add 10 left right

theorem pow10_succ (exponent : Nat) : pow10 (exponent + 1) = 10 * pow10 exponent :=
  Nat.pow_succ'

theorem pow10_le_pow10 {small large : Nat} (le : small ≤ large) : pow10 small ≤ pow10 large :=
  Nat.pow_le_pow_right (by decide) le

theorem pow10_le_pow2 (exponent : Nat) : pow10 exponent ≤ pow2 (4 * exponent) :=
  Nat.le_trans (Nat.pow_le_pow_left (by decide) exponent)
    (Nat.le_of_eq (Nat.pow_mul 2 4 exponent).symm)

theorem roundHalfEven_mul {scale : Nat} (positive : 0 < scale) (numerator denominator : Nat) :
    roundHalfEven (scale * numerator) (scale * denominator) =
      roundHalfEven numerator denominator := by
  have less : scale * denominator < 2 * (scale * (numerator % denominator)) ↔
      denominator < 2 * (numerator % denominator) := by
    rw [Nat.mul_left_comm, Nat.mul_lt_mul_left positive]
  have same : scale * denominator = 2 * (scale * (numerator % denominator)) ↔
      denominator = 2 * (numerator % denominator) := by
    rw [Nat.mul_left_comm, Nat.mul_right_inj (Nat.ne_of_gt positive)]
  simp only [roundHalfEven, Nat.mul_div_mul_left _ _ positive, Nat.mul_mod_mul_left, less, same]

theorem roundHalfEven_small {numerator denominator : Nat} (small : 2 * numerator < denominator) :
    roundHalfEven numerator denominator = 0 := by
  have below : numerator < denominator := by omega
  simp only [roundHalfEven, Nat.div_eq_of_lt below, Nat.mod_eq_of_lt below]
  rw [if_neg (by omega)]

theorem roundHalfEven_exact {quotient denominator : Nat} (positive : 0 < denominator) :
    roundHalfEven (quotient * denominator) denominator = quotient := by
  have scaled := roundHalfEven_mul positive quotient 1
  rwa [Nat.mul_one, Nat.mul_comm, roundHalfEven_one] at scaled

namespace Magnitude

theorem ofQuotient?_mul {scale : Nat} (positive : 0 < scale) (numerator denominator : Nat) :
    ofQuotient? (scale * numerator) (scale * denominator) =
      ofQuotient? numerator denominator := by
  simp only [ofQuotient?, roundedAt, Nat.mul_div_mul_left _ _ positive, Nat.mul_assoc,
    roundHalfEven_mul positive]
  rfl

theorem ofQuotient?_congr {numerator denominator other divisor : Nat}
    (positive : 0 < denominator) (divisorPositive : 0 < divisor)
    (equal : numerator * divisor = other * denominator) :
    ofQuotient? numerator denominator = ofQuotient? other divisor := by
  rw [← ofQuotient?_mul divisorPositive numerator denominator,
    ← ofQuotient?_mul positive other divisor, Nat.mul_comm divisor numerator, equal,
    Nat.mul_comm other denominator, Nat.mul_comm divisor denominator]

theorem ofQuotient?_small {numerator denominator : Nat} (small : 2 * numerator < denominator) :
    ofQuotient? numerator denominator = some zero := by
  have below : numerator < denominator := by omega
  have exponent : exponentFor (numerator / denominator) = 0 := by
    rw [Nat.div_eq_of_lt below]
    rfl
  have rounded : roundedAt numerator denominator 0 = 0 := by
    rw [roundedAt, pow2_zero, Nat.mul_one]
    exact roundHalfEven_small small
  simp only [ofQuotient?, exponent, rounded]
  rfl

theorem ofQuotient?_large {numerator denominator : Nat}
    (large : pow2 2098 ≤ numerator / denominator) :
    ofQuotient? numerator denominator = none := by
  have exponent := le_log2_of_pow2_le large
  have beyond : 2045 < exponentFor (numerator / denominator) := by
    unfold exponentFor
    omega
  have above : 2045 < exponentFor (numerator / denominator) + 1 := by omega
  simp only [ofQuotient?, Nat.not_le.mpr beyond, Nat.not_le.mpr above, ↓reduceDIte]
  split <;> rfl

theorem exponentFor_units (magnitude : Magnitude) :
    exponentFor magnitude.units = magnitude.exponent := by
  have below := magnitude.significand_lt
  unfold exponentFor
  rcases magnitude.canonical with least | normal
  · have bits : magnitude.units.log2 ≤ 52 := by
      by_cases empty : magnitude.units = 0
      · simp [empty]
      · refine Nat.lt_succ_iff.mp ((Nat.log2_lt empty).mpr ?_)
        simpa [units, least, pow2] using below
    omega
  · have nonzero : magnitude.units ≠ 0 := by
      have positive := pow2_pos 52
      exact Nat.mul_ne_zero (by omega) (Nat.ne_of_gt (pow2_pos _))
    have bits : magnitude.units.log2 = 52 + magnitude.exponent := by
      rw [Nat.log2_eq_iff nonzero]
      constructor
      · rw [Nat.pow_add]
        exact Nat.mul_le_mul_right _ normal
      · rw [Nat.add_right_comm, Nat.pow_add]
        exact Nat.mul_lt_mul_of_pos_right below (pow2_pos _)
    omega

theorem ofQuotient?_units (magnitude : Magnitude) :
    ofQuotient? magnitude.units 1 = some magnitude := by
  have rounded : roundedAt magnitude.units 1 magnitude.exponent = magnitude.significand := by
    simp only [roundedAt, units, Nat.one_mul]
    exact roundHalfEven_exact (pow2_pos _)
  simp only [ofQuotient?, Nat.div_one, exponentFor_units, rounded]
  rw [dif_pos magnitude.significand_lt, dif_pos magnitude.exponent_le]

end Magnitude

theorem Binary64.ofQuotient_congr (negative : Bool) {numerator denominator other divisor : Nat}
    (positive : 0 < denominator) (divisorPositive : 0 < divisor)
    (equal : numerator * divisor = other * denominator) :
    ofQuotient negative numerator denominator = ofQuotient negative other divisor := by
  rw [ofQuotient, ofQuotient, Magnitude.ofQuotient?_congr positive divisorPositive equal]

theorem Binary64.ofQuotient_units (negative : Bool) (magnitude : Magnitude) {denominator : Nat}
    (positive : 0 < denominator) :
    ofQuotient negative (magnitude.units * denominator) denominator =
      finite negative magnitude := by
  rw [ofQuotient_congr negative positive Nat.one_pos (Nat.mul_one _), ofQuotient,
    Magnitude.ofQuotient?_units]

namespace Numeral

/-- The exact size of a numeral in units, as a numerator and a denominator. -/
def quotient (numeral : Numeral) : Nat × Nat :=
  (numeral.coefficient * pow10 numeral.exponent.toNat * Magnitude.unitsPerOne,
    pow10 (-numeral.exponent).toNat)

theorem quotient_pos (numeral : Numeral) : 0 < numeral.quotient.2 :=
  pow10_pos _

theorem quotient_fraction (negative : Bool) (coefficient places : Nat) :
    (Numeral.mk negative coefficient (-places)).quotient =
      (coefficient * Magnitude.unitsPerOne, pow10 places) := by
  have whole : (-(places : Int)).toNat = 0 := by omega
  rw [quotient, whole, Int.neg_neg, Int.toNat_natCast, pow10_zero, Nat.mul_one]

theorem quotient_small {numeral : Numeral} (gone : numeral.vanishes = true) :
    2 * numeral.quotient.1 < numeral.quotient.2 := by
  simp only [vanishes, Bool.or_eq_true, beq_iff_eq, decide_eq_true_eq] at gone
  rcases gone with empty | tiny
  · simp only [quotient, empty, Nat.zero_mul, Nat.mul_zero]
    exact pow10_pos _
  · have whole : numeral.exponent.toNat = 0 := by omega
    have coefficient := lt_pow2_log2 numeral.coefficient
    simp only [quotient, whole, pow10_zero, Nat.mul_one]
    calc 2 * (numeral.coefficient * Magnitude.unitsPerOne)
        = numeral.coefficient * pow2 1075 := by
          rw [Nat.mul_left_comm, Magnitude.unitsPerOne, ← pow2_succ]
      _ ≤ pow2 (numeral.coefficient.log2 + 1) * pow2 1075 :=
          Nat.mul_le_mul_right _ (Nat.le_of_lt coefficient)
      _ = pow2 (numeral.coefficient.log2 + 1 + 1075) := (pow2_add _ _).symm
      _ < pow2 (3 * (-numeral.exponent).toNat) := Nat.pow_lt_pow_right (by decide) (by omega)
      _ = Nat.pow 8 (-numeral.exponent).toNat := Nat.pow_mul 2 3 _
      _ ≤ pow10 (-numeral.exponent).toNat := Nat.pow_le_pow_left (by decide) _

theorem quotient_large {numeral : Numeral} (present : numeral.coefficient ≠ 0)
    (great : 310 ≤ numeral.exponent) : pow2 2098 ≤ numeral.quotient.1 / numeral.quotient.2 := by
  have fraction : (-numeral.exponent).toNat = 0 := by omega
  have powers : pow2 1024 ≤ pow10 310 := by decide +kernel
  have exponents : pow10 310 ≤ pow10 numeral.exponent.toNat := pow10_le_pow10 (by omega)
  simp only [quotient, fraction]
  rw [pow10_zero, Nat.div_one, show 2098 = 1024 + 1074 from rfl, pow2_add]
  refine Nat.mul_le_mul_right _ ?_
  calc pow2 1024 ≤ pow10 numeral.exponent.toNat := Nat.le_trans powers exponents
    _ ≤ numeral.coefficient * pow10 numeral.exponent.toNat :=
        Nat.le_mul_of_pos_left _ (Nat.pos_of_ne_zero present)

theorem toBinary64_eq (numeral : Numeral) :
    numeral.toBinary64 =
      .ofQuotient numeral.negative numeral.quotient.1 numeral.quotient.2 := by
  unfold toBinary64
  split
  · rename_i gone
    rw [Binary64.ofQuotient, Magnitude.ofQuotient?_small (quotient_small gone)]
  · rename_i stays
    split
    · rename_i great
      have present : numeral.coefficient ≠ 0 := by
        intro empty
        simp [vanishes, empty] at stays
      rw [Binary64.ofQuotient, Magnitude.ofQuotient?_large (quotient_large present great)]
    · rfl

theorem toBinary64_fraction {negative : Bool} {coefficient places : Nat} {magnitude : Magnitude}
    (exact : coefficient * Magnitude.unitsPerOne = magnitude.units * pow10 places) :
    (Numeral.mk negative coefficient (-places)).toBinary64 = .finite negative magnitude := by
  rw [toBinary64_eq, quotient_fraction, exact]
  exact Binary64.ofQuotient_units negative magnitude (pow10_pos places)

theorem quotient_shift (negative : Bool) (coefficient places : Nat) (exponent : Int) :
    (Numeral.mk negative (coefficient * pow10 places) exponent).quotient.1 *
        (Numeral.mk negative coefficient (exponent + places)).quotient.2 =
      (Numeral.mk negative coefficient (exponent + places)).quotient.1 *
        (Numeral.mk negative (coefficient * pow10 places) exponent).quotient.2 := by
  have powers : pow10 places * pow10 exponent.toNat * pow10 (-(exponent + places)).toNat =
      pow10 (exponent + places).toNat * pow10 (-exponent).toNat := by
    rw [← pow10_add, ← pow10_add, ← pow10_add]
    congr 1
    omega
  dsimp only [quotient]
  generalize Magnitude.unitsPerOne = units
  calc coefficient * pow10 places * pow10 exponent.toNat * units *
        pow10 (-(exponent + places)).toNat
      = coefficient * units *
          (pow10 places * pow10 exponent.toNat * pow10 (-(exponent + places)).toNat) := by ac_rfl
    _ = coefficient * pow10 (exponent + places).toNat * units * pow10 (-exponent).toNat := by
        rw [powers]
        ac_rfl

theorem toBinary64_shift (negative : Bool) (coefficient places : Nat) (exponent : Int) :
    (Numeral.mk negative (coefficient * pow10 places) exponent).toBinary64 =
      (Numeral.mk negative coefficient (exponent + places)).toBinary64 := by
  rw [toBinary64_eq, toBinary64_eq]
  exact Binary64.ofQuotient_congr negative (quotient_pos _) (quotient_pos _) (quotient_shift ..)

theorem toBinary64_negative {coefficient : Nat} {exponent : Int} {magnitude : Magnitude}
    (positive : (Numeral.mk false coefficient exponent).toBinary64 = .finite false magnitude) :
    (Numeral.mk true coefficient exponent).toBinary64 = .finite true magnitude := by
  have size : (Numeral.mk true coefficient exponent).quotient =
      (Numeral.mk false coefficient exponent).quotient := rfl
  rw [toBinary64_eq, Binary64.ofQuotient] at positive ⊢
  rw [size]
  cases found : Magnitude.ofQuotient? (Numeral.mk false coefficient exponent).quotient.1
      (Numeral.mk false coefficient exponent).quotient.2 with
  | none =>
    rw [found] at positive
    cases positive
  | some other =>
    rw [found] at positive
    cases positive
    rfl

end Numeral
end RecordGraph
