import RecordGraph.Proofs.Text.Runs
import RecordGraph.Value.Accumulator

/-!
# The integer at the front of a text

Blanks, a sign and digits stand in front of the rest of a text. What is read is the integer that the
sign and the digits write, or the end of the range nearest to it. Building it digit by digit gives
the same: as long as the number fits, each step is exact, and once it does not fit, no further digit
brings it back.
-/

namespace RecordGraph
open Text

/-! ## The range -/

theorem leastInt_eq : leastInt = -9223372036854775808 := by decide

theorem greatestInt_eq : greatestInt = 9223372036854775807 := by decide

theorem toInt_ofInt {value : Int} (least : leastInt ≤ value) (greatest : value ≤ greatestInt) :
    (Int64.ofInt value).toInt = value := by
  rw [leastInt_eq] at least
  rw [greatestInt_eq] at greatest
  exact Int64.toInt_ofInt_of_le least (Int.lt_add_one_of_le greatest)

theorem toInt_clampInt (value : Int) :
    (clampInt value).toInt = max leastInt (min greatestInt value) := by
  have ordered : leastInt ≤ greatestInt := by decide
  exact toInt_ofInt (by omega) (by omega)

theorem toInt_bounds (number : Int64) : leastInt ≤ number.toInt ∧ number.toInt ≤ greatestInt := by
  have least := number.le_toInt
  have greatest := number.toInt_lt
  rw [leastInt_eq, greatestInt_eq]
  omega

theorem fitInt?_eq_some_iff {value : Int} {number : Int64} :
    fitInt? value = some number ↔ number.toInt = value := by
  unfold fitInt?
  constructor
  · intro found
    split at found
    · rename_i inside
      cases found
      exact toInt_ofInt inside.1 inside.2
    · cases found
  · rintro rfl
    rw [if_pos (toInt_bounds number), Int64.ofInt_toInt]

theorem fitInt?_eq_none_iff {value : Int} :
    fitInt? value = none ↔ value < leastInt ∨ greatestInt < value := by
  unfold fitInt?
  split
  · simp only [reduceCtorEq, false_iff]
    omega
  · simp only [true_iff]
    omega

/-! ## Digits -/

/-- One step is exact or leaves the range. A product that leaves it would not come back with the
digit, which lies on the same side of zero. -/
theorem appendDigit?_eq {negative : Bool} {number : Int64} {size : Nat}
    (built : number.toInt = Binary64.signed negative size) (digit : Char) :
    appendDigit? negative number digit =
      fitInt? (Binary64.signed negative (10 * size + digitValue digit)) := by
  unfold appendDigit?
  cases shifted : fitInt? (number.toInt * 10) with
  | none =>
    rw [fitInt?_eq_none_iff, built, leastInt_eq, greatestInt_eq] at shifted
    symm
    rw [Option.bind_eq_bind, Option.bind_none, fitInt?_eq_none_iff, leastInt_eq, greatestInt_eq]
    cases negative <;> simp only [Binary64.signed, Bool.false_eq_true, ↓reduceIte] at shifted ⊢ <;>
      omega
  | some product =>
    have exact := fitInt?_eq_some_iff.mp shifted
    rw [built] at exact
    rw [Option.bind_eq_bind, Option.bind_some, exact]
    cases negative <;> simp only [Binary64.signed, Bool.false_eq_true, ↓reduceIte] <;>
      congr 1 <;> omega

theorem beyond {negative : Bool} {small large : Nat} (le : small ≤ large)
    (outside : fitInt? (Binary64.signed negative small) = none) :
    fitInt? (Binary64.signed negative large) = none ∧
      clampInt (Binary64.signed negative large) = rangeEnd negative := by
  rw [fitInt?_eq_none_iff, leastInt_eq, greatestInt_eq] at outside
  rw [fitInt?_eq_none_iff, clampInt, rangeEnd, leastInt_eq, greatestInt_eq]
  cases negative <;> simp only [Binary64.signed, Bool.false_eq_true, ↓reduceIte] at outside ⊢ <;>
    exact ⟨by omega, congrArg Int64.ofInt (by omega)⟩

section

variable {negative : Bool} {number : Int64} {size : Nat}
  (built : number.toInt = Binary64.signed negative size)

include built

theorem foldlM_appendDigit? (digits : List Char) :
    digits.foldlM (appendDigit? negative) number =
      fitInt? (Binary64.signed negative (numberFrom size digits)) := by
  induction digits generalizing number size with
  | nil => exact (fitInt?_eq_some_iff.mpr built).symm
  | cons digit digits induction =>
    rw [List.foldlM_cons, appendDigit?_eq built]
    cases step : fitInt? (Binary64.signed negative (10 * size + digitValue digit)) with
    | none => exact (beyond (le_numberFrom _ digits) step).1.symm
    | some next => exact induction (fitInt?_eq_some_iff.mp step)

theorem accumulate_run {digits rest : List Char}
    (all : ∀ digit ∈ digits, isDigit digit = true) (stops : Stops isDigit rest) :
    accumulate negative number (digits ++ rest) =
      clampInt (Binary64.signed negative (numberFrom size digits)) := by
  induction digits generalizing number size with
  | nil =>
    have kept : accumulate negative number rest = number := by
      cases rest with
      | nil => rfl
      | cons character rest =>
        rw [accumulate, stops_cons.mp stops]
        simp only [Bool.false_eq_true, ↓reduceIte]
    have bounds := toInt_bounds number
    rw [List.nil_append, kept, numberFrom, List.foldl_nil, ← built, clampInt,
      Int.min_eq_right bounds.2, Int.max_eq_right bounds.1, Int64.ofInt_toInt]
  | cons digit digits induction =>
    rw [List.cons_append, accumulate, if_pos (all digit List.mem_cons_self), appendDigit?_eq built]
    cases step : fitInt? (Binary64.signed negative (10 * size + digitValue digit)) with
    | none => exact (beyond (le_numberFrom _ digits) step).2.symm
    | some next =>
      exact induction (fitInt?_eq_some_iff.mp step) fun other member =>
        all other (List.mem_cons_of_mem digit member)

end

/-! ## The front of a text -/

/-- The parts of a text in which an integer is looked for: blanks, a sign or none, digits as far as
they go, and the rest. -/
structure IntegerParts (text : List Char) where
  blanks : List Char
  sign : List Char
  digits : List Char
  rest : List Char
  parts_eq : blanks ++ (sign ++ (digits ++ rest)) = text
  isBlank_blanks : ∀ character ∈ blanks, isBlank character = true
  stops_blanks : Stops isBlank (sign ++ (digits ++ rest))
  sign_cases : sign = ['-'] ∨ sign = ['+'] ∨
    sign = [] ∧ Stops (fun character => character == '-' || character == '+') (digits ++ rest)
  isDigit_digits : ∀ character ∈ digits, isDigit character = true
  stops_digits : Stops isDigit rest

namespace IntegerParts

variable {text : List Char}

def negative (parts : IntegerParts text) : Bool := parts.sign == ['-']

def value (parts : IntegerParts text) : Int :=
  Binary64.signed parts.negative (number parts.digits)

theorem dropBlanks_text (parts : IntegerParts text) :
    dropBlanks text = parts.sign ++ (parts.digits ++ parts.rest) := by
  have dropped := dropWhile_run parts.isBlank_blanks parts.stops_blanks
  rwa [parts.parts_eq] at dropped

theorem takeSign_text (parts : IntegerParts text) :
    takeSign (parts.sign ++ (parts.digits ++ parts.rest)) =
      (parts.negative, parts.digits ++ parts.rest) := by
  rcases parts.sign_cases with minus | plus | ⟨missing, unsigned⟩
  · simp [negative, minus]
  · simp [negative, plus, takeSign]
  · rw [missing, List.nil_append, negative, missing]
    unfold takeSign
    split
    · rename_i behind same
      rw [same, stops_cons] at unsigned
      cases unsigned
    · rename_i behind same
      rw [same, stops_cons] at unsigned
      cases unsigned
    · rfl

theorem integerPrefix_text (parts : IntegerParts text) :
    integerPrefix text = clampInt parts.value := by
  rw [integerPrefix_eq, exactIntegerPrefix, parts.dropBlanks_text, parts.takeSign_text]
  simp only [takeWhile_run parts.isDigit_digits parts.stops_digits]
  rfl

theorem accumulatedPrefix_text (parts : IntegerParts text) :
    accumulatedPrefix text = clampInt parts.value := by
  rw [accumulatedPrefix, parts.dropBlanks_text, parts.takeSign_text]
  refine accumulate_run ?_ parts.isDigit_digits parts.stops_digits
  cases parts.negative <;> rfl

theorem nonempty (text : List Char) : Nonempty (IntegerParts text) := by
  have blank : ∀ character ∈ text.takeWhile isBlank, isBlank character = true :=
    List.all_eq_true.mp List.all_takeWhile
  have stops := stops_dropWhile isBlank text
  have whole := List.takeWhile_append_dropWhile (p := isBlank) (l := text)
  obtain ⟨sign, unsigned, split, signCases⟩ : ∃ sign unsigned,
      text.dropWhile isBlank = sign ++ unsigned ∧ (sign = ['-'] ∨ sign = ['+'] ∨
        sign = [] ∧ Stops (fun character => character == '-' || character == '+') unsigned) := by
    cases text.dropWhile isBlank with
    | nil => exact ⟨[], [], rfl, .inr (.inr ⟨rfl, stops_nil⟩)⟩
    | cons first rest =>
      by_cases minus : first = '-'
      · exact ⟨['-'], rest, by rw [minus]; rfl, .inl rfl⟩
      · by_cases plus : first = '+'
        · exact ⟨['+'], rest, by rw [plus]; rfl, .inr (.inl rfl)⟩
        · exact ⟨[], first :: rest, rfl, .inr (.inr ⟨rfl, by simp [minus, plus]⟩)⟩
  have digits := List.takeWhile_append_dropWhile (p := isDigit) (l := unsigned)
  refine ⟨⟨text.takeWhile isBlank, sign, unsigned.takeWhile isDigit, unsigned.dropWhile isDigit,
    ?_, blank, ?_, ?_, List.all_eq_true.mp List.all_takeWhile, stops_dropWhile isDigit unsigned⟩⟩
  · rw [digits, ← split, whole]
  · rw [digits, ← split]
    exact stops
  · rwa [digits]

def follow (parts : IntegerParts text) (present : parts.digits ≠ []) {other : List Char}
    (stops : Stops isDigit other) :
    IntegerParts (parts.blanks ++ (parts.sign ++ (parts.digits ++ other))) where
  blanks := parts.blanks
  sign := parts.sign
  digits := parts.digits
  rest := other
  parts_eq := rfl
  isBlank_blanks := parts.isBlank_blanks
  stops_blanks := by
    have before := parts.stops_blanks
    cases signed : parts.sign with
    | nil =>
      cases digits : parts.digits with
      | nil => exact absurd digits present
      | cons first behind =>
        simpa [signed, digits] using before
    | cons first behind => simpa [signed] using before
  sign_cases := by
    refine parts.sign_cases.imp_right (Or.imp_right fun unsigned => ⟨unsigned.1, ?_⟩)
    have before := unsigned.2
    cases digits : parts.digits with
    | nil => exact absurd digits present
    | cons first behind => simpa [digits] using before
  isDigit_digits := parts.isDigit_digits
  stops_digits := stops

structure Read (parts : IntegerParts text) : Prop where
  saturated : (integerPrefix text).toInt = max leastInt (min greatestInt parts.value)
  accumulated : accumulatedPrefix text = integerPrefix text
  exact_steps : ∀ front, front <+: parts.digits →
    front.foldlM (appendDigit? parts.negative) 0 =
      fitInt? (Binary64.signed parts.negative (number front))
  rest_ignored : parts.digits ≠ [] → ∀ other, Stops isDigit other →
    integerPrefix (parts.blanks ++ (parts.sign ++ (parts.digits ++ other))) = integerPrefix text

end IntegerParts

/-- The integer at the front of any text is the one that is written there, or the end of the range
nearest to it. Digit by digit in 64 bits it is built without a step that is not exact, nothing
behind the digits matters, and every integer of 64 bits is read from its decimal text, both ends of
the range included. -/
theorem integerPrefix_saturates (text : List Char) :
    Nonempty (IntegerParts text) ∧ (∀ parts : IntegerParts text, parts.Read) ∧
      ∀ number : Int64, integerPrefix (decimalText number.toInt) = number := by
  refine ⟨IntegerParts.nonempty text, fun parts => ?_, integerPrefix_decimalText⟩
  have zero (negative : Bool) : (0 : Int64).toInt = Binary64.signed negative 0 := by
    cases negative <;> rfl
  constructor
  · rw [parts.integerPrefix_text, toInt_clampInt]
  · rw [parts.accumulatedPrefix_text, parts.integerPrefix_text]
  · intro front _
    exact foldlM_appendDigit? (zero parts.negative) front
  · intro present other stops
    rw [(parts.follow present stops).integerPrefix_text, parts.integerPrefix_text]
    rfl

-- the last digit is one too many
example : integerPrefix "\t-9223372036854775809 x".toList = -9223372036854775808 := by
  decide +kernel

end RecordGraph
