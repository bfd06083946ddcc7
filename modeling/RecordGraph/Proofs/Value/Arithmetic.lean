import RecordGraph.Proofs.Binary64.Rounding
import RecordGraph.Proofs.Value.Division

/-!
# Laws of arithmetic on values

An operator is refused for what is seen on its operands: one of them is no number, or a division
has a right operand that reads as zero. Otherwise two integers give the exact result, taken back
into 64 bits, and a real operand makes the result a real.
-/

namespace RecordGraph

/-! ## Results on integers -/

namespace Operator

def Divides (operator : Operator) : Prop :=
  operator = div ∨ operator = rem

def zeroError? : Operator → Option ArithmeticError
  | div => some .divisionByZero
  | rem => some .moduloByZero
  | _ => none

theorem divides_iff {operator : Operator} :
    operator.Divides ↔ ∃ error, operator.zeroError? = some error := by
  cases operator <;> simp [Divides, zeroError?]

def exactResult : Operator → Int → Int → Int
  | add, left, right => left + right
  | sub, left, right => left - right
  | mul, left, right => left * right
  | div, left, right => left.tdiv right
  | rem, left, right => left.tmod right
  | min, left, right => Min.min left right
  | max, left, right => Max.max left right

theorem onInts_zero {operator : Operator} {error : ArithmeticError}
    (divides : operator.zeroError? = some error) (left : Int64) :
    operator.onInts left 0 = .error error := by
  cases operator <;> cases divides <;> rfl

theorem toInt_eq_bmod {number : Int64} {value : Int} (fits : number.toInt = value) :
    number.toInt = value.bmod (2 ^ 64) := by
  rw [← fits]
  exact (Int64.toInt_bmod _).symm

/-- Unless it divides by zero, an operator has a result, which is the exact one modulo `2 ^ 64`. -/
theorem exists_onInts (operator : Operator) {left right : Int64}
    (possible : ¬ (operator.Divides ∧ right = 0)) :
    ∃ result, operator.onInts left right = .ok result ∧
      result.toInt = (operator.exactResult left.toInt right.toInt).bmod (2 ^ 64) := by
  cases operator with
  | add => exact ⟨_, rfl, Int64.toInt_add left right⟩
  | sub => exact ⟨_, rfl, Int64.toInt_sub left right⟩
  | mul => exact ⟨_, rfl, Int64.toInt_mul left right⟩
  | div =>
    have nonzero : right ≠ 0 := fun zero => possible ⟨.inl rfl, zero⟩
    exact ⟨_, if_neg nonzero, Int64.toInt_div left right⟩
  | rem =>
    have nonzero : right ≠ 0 := fun zero => possible ⟨.inr rfl, zero⟩
    exact ⟨_, if_neg nonzero, toInt_eq_bmod (Int64.toInt_mod left right)⟩
  | min =>
    have least : (if right < left then right else left).toInt = Min.min left.toInt right.toInt := by
      simp only [Int64.lt_iff_toInt_lt]
      split <;> omega
    exact ⟨_, rfl, toInt_eq_bmod least⟩
  | max =>
    have greatest :
        (if left < right then right else left).toInt = Max.max left.toInt right.toInt := by
      simp only [Int64.lt_iff_toInt_lt]
      split <;> omega
    exact ⟨_, rfl, toInt_eq_bmod greatest⟩

end Operator

/-! ## Results on reals -/

namespace Magnitude

theorem roundedAt_ne_zero {numerator denominator : Nat} (large : 1 ≤ numerator / denominator) :
    roundedAt numerator denominator (exponentFor (numerator / denominator)) ≠ 0 := by
  by_cases least : exponentFor (numerator / denominator) = 0
  · have kept := le_roundHalfEven numerator (denominator * pow2 0)
    rw [pow2_zero, Nat.mul_one] at kept
    rw [least, roundedAt, pow2_zero, Nat.mul_one]
    omega
  · have positive := pow2_pos 52
    have kept := le_roundedAt least
    omega

theorem significand_ne_zero {numerator denominator : Nat} {magnitude : Magnitude}
    (large : 1 ≤ numerator / denominator)
    (rounded : ofQuotient? numerator denominator = some magnitude) :
    magnitude.significand ≠ 0 := by
  simp only [ofQuotient?] at rounded
  split at rounded <;> split at rounded <;> cases rounded
  · exact roundedAt_ne_zero large
  · exact Nat.ne_of_gt (pow2_pos 52)

end Magnitude

namespace Binary64

/-- An integer is zero as a real only if it is zero: it has more than one unit otherwise. -/
theorem isZero_ofInt {value : Int} : (ofInt value).isZero = true ↔ value = 0 := by
  constructor
  · intro zero
    by_contra nonzero
    have large : 1 ≤ (value * Magnitude.unitsPerOne).natAbs / 1 := by
      rw [Nat.div_one, Int.natAbs_mul, Int.natAbs_natCast, Magnitude.unitsPerOne]
      exact Nat.mul_pos (Int.natAbs_pos.mpr nonzero) (pow2_pos 1074)
    unfold ofInt ofUnits ofQuotient at zero
    split at zero
    · rename_i magnitude rounded
      exact Magnitude.significand_ne_zero large rounded (eq_of_beq zero)
    · cases zero
  · rintro rfl
    decide +kernel

end Binary64

namespace Operator

theorem onReals_zero {operator : Operator} {error : ArithmeticError}
    (divides : operator.zeroError? = some error) (left : Binary64) {right : Binary64}
    (zero : right.isZero = true) : operator.onReals left right = .error error := by
  cases operator <;> cases divides <;> exact if_pos zero

theorem exists_onReals (operator : Operator) (left : Binary64) {right : Binary64}
    (possible : ¬ (operator.Divides ∧ right.isZero = true)) :
    ∃ result, operator.onReals left right = .ok result := by
  cases operator with
  | div => exact ⟨_, if_neg fun zero => possible ⟨.inl rfl, zero⟩⟩
  | rem => exact ⟨_, if_neg fun zero => possible ⟨.inr rfl, zero⟩⟩
  | _ => exact ⟨_, rfl⟩

end Operator

/-! ## Operands -/

namespace Value

inductive Reads : Value → Number → Prop
  | absent : Reads absent (.int 0)
  | int (value : Int64) : Reads (int value) (.int value)
  | real (value : Binary64) : Reads (real value) (.real value)

def IsForeign (value : Value) : Prop :=
  (∃ content, value = text content) ∨ ∃ word, value = handle word

def ReadsZero (value : Value) : Prop :=
  value.Reads (.int 0) ∨ ∃ number, value.Reads (.real number) ∧ number.isZero = true

theorem toNumber_of_reads {value : Value} {number : Number} (reads : value.Reads number) :
    value.toNumber = .ok number := by
  cases reads <;> rfl

theorem toNumber_of_isForeign {value : Value} (foreign : value.IsForeign) :
    value.toNumber = .error (.notNumeric value.variantName) := by
  rcases foreign with ⟨content, rfl⟩ | ⟨word, rfl⟩ <;> rfl

theorem reads_or_isForeign (value : Value) : (∃ number, value.Reads number) ∨ value.IsForeign := by
  cases value with
  | absent => exact .inl ⟨_, .absent⟩
  | int value => exact .inl ⟨_, .int value⟩
  | real value => exact .inl ⟨_, .real value⟩
  | text content => exact .inr (.inl ⟨content, rfl⟩)
  | handle word => exact .inr (.inr ⟨word, rfl⟩)

theorem Reads.not_isForeign {value : Value} {number : Number} (reads : value.Reads number) :
    ¬ value.IsForeign := by
  intro foreign
  have refused := toNumber_of_isForeign foreign
  rw [toNumber_of_reads reads] at refused
  cases refused

theorem Reads.eq {value : Value} {number other : Number} (reads : value.Reads number)
    (readsOther : value.Reads other) : number = other := by
  have same := toNumber_of_reads reads
  rw [toNumber_of_reads readsOther] at same
  exact (Except.ok.inj same).symm

theorem Reads.readsZero_int {value : Value} {number : Int64} (reads : value.Reads (.int number)) :
    value.ReadsZero ↔ number = 0 := by
  constructor
  · rintro (zero | ⟨other, real, -⟩)
    · exact Number.int.inj (reads.eq zero)
    · cases reads.eq real
  · rintro rfl
    exact .inl reads

theorem Reads.readsZero_iff {value : Value} {number : Number} (reads : value.Reads number) :
    value.ReadsZero ↔ number.toReal.isZero = true := by
  cases number with
  | int number =>
    rw [reads.readsZero_int, Number.toReal, Binary64.isZero_ofInt, ← Int64.toInt_inj]
    rfl
  | real number =>
    constructor
    · rintro (zero | ⟨other, real, isZero⟩)
      · cases reads.eq zero
      · cases reads.eq real
        exact isZero
    · exact fun isZero => .inr ⟨number, reads, isZero⟩

def IsReal (value : Value) : Prop :=
  ∃ number, value = real number

theorem binary_of_ints (operator : Operator) {left right : Value} {leftInt rightInt : Int64}
    (readsLeft : left.Reads (.int leftInt)) (readsRight : right.Reads (.int rightInt)) :
    binary operator left right = (operator.onInts leftInt rightInt).map int := by
  rw [binary, toNumber_of_reads readsLeft, toNumber_of_reads readsRight]
  rfl

theorem binary_of_reals (operator : Operator) {left right : Value} {leftNumber rightNumber : Number}
    (readsLeft : left.Reads leftNumber) (readsRight : right.Reads rightNumber)
    (someReal : left.IsReal ∨ right.IsReal) :
    binary operator left right =
      (operator.onReals leftNumber.toReal rightNumber.toReal).map real := by
  rw [binary, toNumber_of_reads readsLeft, toNumber_of_reads readsRight]
  rcases someReal with ⟨number, rfl⟩ | ⟨number, rfl⟩
  · cases readsLeft
    rfl
  · cases readsRight
    cases readsLeft <;> rfl

theorem ints_or_isReal {left right : Value} (numeric : ¬ left.IsForeign)
    (numericRight : ¬ right.IsForeign) :
    (∃ leftInt rightInt, left.Reads (.int leftInt) ∧ right.Reads (.int rightInt)) ∨
      ∃ leftNumber rightNumber, left.Reads leftNumber ∧ right.Reads rightNumber ∧
        (left.IsReal ∨ right.IsReal) := by
  obtain ⟨leftNumber, readsLeft⟩ := left.reads_or_isForeign.resolve_right numeric
  obtain ⟨rightNumber, readsRight⟩ := right.reads_or_isForeign.resolve_right numericRight
  cases readsLeft with
  | real value => exact .inr ⟨_, _, .real value, readsRight, .inl ⟨value, rfl⟩⟩
  | absent =>
    cases readsRight with
    | real other => exact .inr ⟨_, _, .absent, .real other, .inr ⟨other, rfl⟩⟩
    | absent => exact .inl ⟨_, _, .absent, .absent⟩
    | int other => exact .inl ⟨_, _, .absent, .int other⟩
  | int value =>
    cases readsRight with
    | real other => exact .inr ⟨_, _, .int value, .real other, .inr ⟨other, rfl⟩⟩
    | absent => exact .inl ⟨_, _, .int value, .absent⟩
    | int other => exact .inl ⟨_, _, .int value, .int other⟩

/-! ## Refusals -/

inductive Refuses (operator : Operator) (left right : Value) : ArithmeticError → Prop
  | left (foreign : left.IsForeign) : Refuses operator left right (.notNumeric left.variantName)
  | right (numeric : ¬ left.IsForeign) (foreign : right.IsForeign) :
      Refuses operator left right (.notNumeric right.variantName)
  | zero {error : ArithmeticError} (numeric : ¬ left.IsForeign) (zero : right.ReadsZero)
      (divides : operator.zeroError? = some error) : Refuses operator left right error

def Refused (operator : Operator) (left right : Value) : Prop :=
  left.IsForeign ∨ right.IsForeign ∨ operator.Divides ∧ right.ReadsZero

theorem exists_refuses_iff {operator : Operator} {left right : Value} :
    (∃ error, Refuses operator left right error) ↔ Refused operator left right := by
  rw [Refused, Operator.divides_iff]
  constructor
  · rintro ⟨error, refuses⟩
    cases refuses with
    | left foreign => exact .inl foreign
    | right numeric foreign => exact .inr (.inl foreign)
    | zero numeric zero divides => exact .inr (.inr ⟨⟨error, divides⟩, zero⟩)
  · intro refused
    by_cases foreign : left.IsForeign
    · exact ⟨_, .left foreign⟩
    · rcases refused with known | foreignRight | ⟨⟨error, divides⟩, zero⟩
      · exact absurd known foreign
      · exact ⟨_, .right foreign foreignRight⟩
      · exact ⟨error, .zero foreign zero divides⟩

theorem ReadsZero.not_isForeign {value : Value} (zero : value.ReadsZero) : ¬ value.IsForeign := by
  rcases zero with reads | ⟨number, reads, -⟩ <;> exact reads.not_isForeign

theorem binary_of_refuses {operator : Operator} {left right : Value} {error : ArithmeticError}
    (refuses : Refuses operator left right error) :
    binary operator left right = .error error := by
  cases refuses with
  | left foreign =>
    rw [binary, toNumber_of_isForeign foreign]
    rfl
  | right numeric foreign =>
    obtain ⟨number, reads⟩ := left.reads_or_isForeign.resolve_right numeric
    rw [binary, toNumber_of_reads reads, toNumber_of_isForeign foreign]
    rfl
  | zero numeric zero divides =>
    rcases ints_or_isReal numeric zero.not_isForeign with
      ⟨leftInt, rightInt, readsLeft, readsRight⟩ |
      ⟨leftNumber, rightNumber, readsLeft, readsRight, someReal⟩
    · rw [binary_of_ints operator readsLeft readsRight, readsRight.readsZero_int.mp zero,
        Operator.onInts_zero divides]
      rfl
    · rw [binary_of_reals operator readsLeft readsRight someReal,
        Operator.onReals_zero divides _ (readsRight.readsZero_iff.mp zero)]
      rfl

section

variable {operator : Operator} {left right : Value} (accepted : ¬ Refused operator left right)

include accepted

theorem exists_int_of_accepted {leftInt rightInt : Int64} (readsLeft : left.Reads (.int leftInt))
    (readsRight : right.Reads (.int rightInt)) :
    ∃ result, binary operator left right = .ok (int result) ∧
      result.toInt = (operator.exactResult leftInt.toInt rightInt.toInt).bmod (2 ^ 64) := by
  have possible : ¬ (operator.Divides ∧ rightInt = 0) := fun ⟨divides, zero⟩ =>
    accepted (.inr (.inr ⟨divides, readsRight.readsZero_int.mpr zero⟩))
  obtain ⟨result, found, same⟩ := operator.exists_onInts possible
  refine ⟨result, ?_, same⟩
  rw [binary_of_ints operator readsLeft readsRight, found]
  rfl

theorem exists_real_of_accepted (someReal : left.IsReal ∨ right.IsReal) :
    ∃ result, binary operator left right = .ok (real result) := by
  obtain ⟨leftNumber, readsLeft⟩ :=
    left.reads_or_isForeign.resolve_right fun foreign => accepted (.inl foreign)
  obtain ⟨rightNumber, readsRight⟩ :=
    right.reads_or_isForeign.resolve_right fun foreign => accepted (.inr (.inl foreign))
  have possible : ¬ (operator.Divides ∧ rightNumber.toReal.isZero = true) := fun ⟨divides, zero⟩ =>
    accepted (.inr (.inr ⟨divides, readsRight.readsZero_iff.mpr zero⟩))
  obtain ⟨result, found⟩ := operator.exists_onReals leftNumber.toReal possible
  refine ⟨result, ?_⟩
  rw [binary_of_reals operator readsLeft readsRight someReal, found]
  rfl

theorem exists_result_of_accepted : ∃ result, binary operator left right = .ok result := by
  rcases ints_or_isReal (fun foreign => accepted (.inl foreign))
      (fun foreign => accepted (.inr (.inl foreign))) with
    ⟨leftInt, rightInt, readsLeft, readsRight⟩ | ⟨_, _, _, _, someReal⟩
  · obtain ⟨result, found, -⟩ := exists_int_of_accepted accepted readsLeft readsRight
    exact ⟨_, found⟩
  · obtain ⟨result, found⟩ := exists_real_of_accepted accepted someReal
    exact ⟨_, found⟩

end

theorem binary_eq_error_iff {operator : Operator} {left right : Value} {error : ArithmeticError} :
    binary operator left right = .error error ↔ Refuses operator left right error := by
  refine ⟨fun failed => ?_, binary_of_refuses⟩
  by_cases refused : Refused operator left right
  · obtain ⟨known, refuses⟩ := exists_refuses_iff.mpr refused
    rw [binary_of_refuses refuses] at failed
    cases failed
    exact refuses
  · obtain ⟨result, found⟩ := exists_result_of_accepted refused
    rw [found] at failed
    cases failed

theorem onProcessor?_eq (operator : Operator) (left right : Value) :
    onProcessor? operator left right = some (binary operator left right) := by
  cases left.reads_or_isForeign with
  | inr foreign =>
    rw [binary_of_refuses (.left foreign), onProcessor?, toNumber_of_isForeign foreign]
  | inl numeric =>
    obtain ⟨leftNumber, readsLeft⟩ := numeric
    cases right.reads_or_isForeign with
    | inr foreign =>
      rw [binary_of_refuses (.right readsLeft.not_isForeign foreign), onProcessor?,
        toNumber_of_reads readsLeft, toNumber_of_isForeign foreign]
      cases leftNumber <;> rfl
    | inl numericRight =>
      obtain ⟨rightNumber, readsRight⟩ := numericRight
      rw [onProcessor?, binary, toNumber_of_reads readsLeft, toNumber_of_reads readsRight]
      cases leftNumber with
      | real number => rfl
      | int number =>
        cases rightNumber with
        | real other => rfl
        | int other =>
          simp only [Operator.onProcessor?_eq]
          rfl

/-! ## The laws -/

structure Settled (operator : Operator) (left right : Value) : Prop where
  never_stops : onProcessor? operator left right = some (binary operator left right)
  fails_iff :
    (∃ error, binary operator left right = .error error) ↔ Refused operator left right
  error_iff : ∀ error,
    binary operator left right = .error error ↔ Refuses operator left right error
  int_result : ¬ Refused operator left right → ∀ leftInt rightInt : Int64,
    left.Reads (.int leftInt) → right.Reads (.int rightInt) →
      ∃ result, binary operator left right = .ok (int result) ∧
        result.toInt = (operator.exactResult leftInt.toInt rightInt.toInt).bmod (2 ^ 64)
  real_result : ¬ Refused operator left right → left.IsReal ∨ right.IsReal →
    ∃ result, binary operator left right = .ok (real result)

theorem settled (operator : Operator) (left right : Value) : Settled operator left right where
  never_stops := onProcessor?_eq operator left right
  fails_iff := by
    simp only [binary_eq_error_iff]
    exact exists_refuses_iff
  error_iff _ := binary_eq_error_iff
  int_result accepted _ _ := exists_int_of_accepted accepted
  real_result := exists_real_of_accepted

structure Negated (value : Value) : Prop where
  fails_iff : (∃ error, value.neg = .error error) ↔ value.IsForeign
  int_result : ∀ number : Int64, value.Reads (.int number) →
    ∃ result, value.neg = .ok (int result) ∧ result.toInt = (-number.toInt).bmod (2 ^ 64)
  real_result : value.IsReal → ∃ result, value.neg = .ok (real result)

theorem negated (value : Value) : Negated value where
  fails_iff := by
    constructor
    · rintro ⟨error, failed⟩
      refine value.reads_or_isForeign.resolve_left ?_
      rintro ⟨number, reads⟩
      rw [neg, toNumber_of_reads reads] at failed
      cases number <;> cases failed
    · intro foreign
      rw [neg, toNumber_of_isForeign foreign]
      exact ⟨_, rfl⟩
  int_result number reads := by
    rw [neg, toNumber_of_reads reads]
    exact ⟨_, rfl, Int64.toInt_neg number⟩
  real_result := by
    rintro ⟨number, rfl⟩
    exact ⟨_, rfl⟩

/-- Arithmetic on any two values gives a result or an error that is seen on the values, and never
comes to a division at which the processor stops. Quotient and remainder of two integers fit
together for every divisor but zero, also where the quotient leaves the 64 bits. -/
theorem arithmetic_lawful (left right : Value) :
    (∀ operator, Settled operator left right) ∧
      (∀ leftInt rightInt : Int64, left.Reads (.int leftInt) → right.Reads (.int rightInt) →
        rightInt ≠ 0 →
          ∃ quotient remainder, binary .div left right = .ok (int quotient) ∧
            binary .rem left right = .ok (int remainder) ∧
            Divided leftInt rightInt quotient remainder) ∧
      Negated left := by
  refine ⟨fun operator => settled operator left right, ?_, negated left⟩
  intro leftInt rightInt readsLeft readsRight nonzero
  refine ⟨leftInt / rightInt, leftInt % rightInt, ?_, ?_, divided leftInt nonzero⟩
  · rw [binary_of_ints .div readsLeft readsRight, Operator.onInts, if_neg nonzero]
    rfl
  · rw [binary_of_ints .rem readsLeft readsRight, Operator.onInts, if_neg nonzero]
    rfl

/-- The quotient of the least integer and minus one leaves the 64 bits, and the processor would
stop. -/
theorem arithmetic_lawful_least :
    Reads (int Int64.minValue) (.int Int64.minValue) ∧ Reads (int (-1)) (.int (-1)) ∧
      (-1 : Int64) ≠ 0 ∧ processorQuotient? Int64.minValue (-1) = none ∧
      ∃ quotient remainder,
        binary .div (int Int64.minValue) (int (-1)) = .ok (int quotient) ∧
          binary .rem (int Int64.minValue) (int (-1)) = .ok (int remainder) ∧
          Divided Int64.minValue (-1) quotient remainder := by
  have nonzero : (-1 : Int64) ≠ 0 := by decide
  exact ⟨.int _, .int _, nonzero, processorQuotient?_eq_none_iff.mpr (.inr ⟨rfl, rfl⟩),
    (arithmetic_lawful _ _).2.1 _ _ (.int _) (.int _) nonzero⟩

-- a zero with a minus sign is a zero all the same
example : binary .rem (int 5) (real (.finite true .zero)) = .error .moduloByZero := by
  decide +kernel

end Value
end RecordGraph
