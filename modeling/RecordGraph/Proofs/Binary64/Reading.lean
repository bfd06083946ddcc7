import RecordGraph.Proofs.Binary64.Scanning

/-!
# Written reals read back

The shortest decimal of a magnitude is a numeral that reads back as the magnitude, because it was
tried or because it is the exact expansion. Neither dropping zeros nor the place of the point
changes what is read, so the text of a finite value gives the value.
-/

namespace RecordGraph
open Text

namespace Decimal

def numeral (decimal : Decimal) : Numeral :=
  ⟨false, number decimal.digits, decimal.point - decimal.digits.length⟩

def ReadsBack (decimal : Decimal) (text : List Char) : Prop :=
  ∃ coefficient exponent, Numeral.Spells text coefficient exponent ∧
    (Numeral.mk false coefficient exponent).toBinary64 = decimal.numeral.toBinary64

section

variable {decimal : Decimal} (digits : ∀ digit ∈ decimal.digits, isDigit digit = true)

private theorem isDigit_zeros {count : Nat} {digit : Char}
    (member : digit ∈ List.replicate count '0') : isDigit digit = true := by
  rw [List.eq_of_mem_replicate member]
  rfl

include digits

theorem readsBack_plainText : decimal.ReadsBack decimal.plainText := by
  simp only [plainText]
  split
  · rename_i small
    have fractionDigits : ∀ digit ∈ List.replicate (-decimal.point).toNat '0' ++ decimal.digits,
        isDigit digit = true := by
      intro digit member
      exact (List.mem_append.mp member).elim isDigit_zeros (digits digit)
    refine ⟨_, _, Numeral.spells_point (List.cons_ne_nil '0' []) (by simp [isDigit])
      fractionDigits, ?_⟩
    have zeros := number_zeros_append ((-decimal.point).toNat + 1) decimal.digits
    rw [List.replicate_succ, List.cons_append] at zeros
    rw [numeral, List.singleton_append, zeros, List.length_append, List.length_replicate]
    congr 2
    omega
  · split
    · rename_i large fits
      have wholeDigits : ∀ digit ∈ decimal.digits ++
          List.replicate (decimal.point.toNat - decimal.digits.length) '0',
          isDigit digit = true := by
        intro digit member
        exact (List.mem_append.mp member).elim (digits digit) isDigit_zeros
      have present : decimal.digits ++
          List.replicate (decimal.point.toNat - decimal.digits.length) '0' ≠ [] := by
        rw [← List.length_pos_iff, List.length_append, List.length_replicate]
        omega
      refine ⟨_, _, Numeral.spells_point present wholeDigits (by simp [isDigit]), ?_⟩
      have zeros := number_append_zeros (decimal.point.toNat - decimal.digits.length + 1)
        decimal.digits
      rw [List.replicate_succ', ← List.append_assoc] at zeros
      rw [zeros, Numeral.toBinary64_shift, numeral, List.length_singleton]
      congr 2
      omega
    · rename_i large beyond
      have present : decimal.digits.take decimal.point.toNat ≠ [] := by
        rw [← List.length_pos_iff, List.length_take]
        omega
      refine ⟨_, _, Numeral.spells_point present
        (fun digit member => digits digit (List.mem_of_mem_take member))
        (fun digit member => digits digit (List.mem_of_mem_drop member)), ?_⟩
      rw [List.take_append_drop, numeral, List.length_drop]
      congr 2
      omega

theorem readsBack_scientificText (small : (decimal.point - 1).natAbs < 655360) :
    decimal.ReadsBack decimal.scientificText := by
  rcases decimal with ⟨_ | ⟨first, _ | ⟨second, others⟩⟩, point⟩
  · refine ⟨_, _, Numeral.spells_exponent (List.cons_ne_nil '0' []) (by simp [isDigit]) small, ?_⟩
    simp [numeral, Numeral.toBinary64, Numeral.vanishes, number, numberFrom, digitValue]
  · exact ⟨_, _, Numeral.spells_exponent (List.cons_ne_nil first []) digits small, rfl⟩
  · refine ⟨_, _, Numeral.spells_point_exponent (List.cons_ne_nil first [])
      (fun digit member => digits digit (List.mem_cons.mpr (.inl (List.mem_singleton.mp member))))
      (fun digit member => digits digit (List.mem_cons_of_mem first member)) small, ?_⟩
    rw [List.singleton_append, numeral]
    congr 2
    simp only [List.length_cons]
    omega

theorem readsBack_text (small : (decimal.point - 1).natAbs < 655360) :
    decimal.ReadsBack decimal.text := by
  unfold text
  split
  · exact readsBack_plainText digits
  · exact readsBack_scientificText digits small

end

/-! ## Decimals of numerals -/

theorem digits_ofNumeral (numeral : Numeral) :
    ∃ count, decimalDigits numeral.coefficient =
      (ofNumeral numeral).digits ++ List.replicate count '0' := by
  have parts := List.takeWhile_append_dropWhile (p := (· == '0'))
    (l := (decimalDigits numeral.coefficient).reverse)
  have zeros := List.eq_replicate_of_mem fun digit
    (member : digit ∈ (decimalDigits numeral.coefficient).reverse.takeWhile (· == '0')) =>
    eq_of_beq (List.all_eq_true.mp List.all_takeWhile digit member)
  refine ⟨((decimalDigits numeral.coefficient).reverse.takeWhile (· == '0')).length, ?_⟩
  rw [← List.reverse_replicate, ← zeros, ofNumeral, ← List.reverse_append, parts,
    List.reverse_reverse]

theorem isDigit_digits_ofNumeral (numeral : Numeral) :
    ∀ digit ∈ (ofNumeral numeral).digits, isDigit digit = true := by
  rcases digits_ofNumeral numeral with ⟨count, parts⟩
  intro digit member
  apply isDigit_of_mem_decimalDigits
  rw [parts]
  exact List.mem_append_left _ member

theorem toBinary64_ofNumeral (coefficient : Nat) (exponent : Int) :
    (ofNumeral ⟨false, coefficient, exponent⟩).numeral.toBinary64 =
      (Numeral.mk false coefficient exponent).toBinary64 := by
  rcases digits_ofNumeral ⟨false, coefficient, exponent⟩ with ⟨count, parts⟩
  have value := congrArg number parts
  have length := congrArg List.length parts
  rw [number_decimalDigits, number_append_zeros] at value
  rw [List.length_append, List.length_replicate] at length
  simp only at value
  rw [value, Numeral.toBinary64_shift, ← value, numeral]
  congr 2
  simp only [ofNumeral] at length ⊢
  omega

end Decimal

namespace Numeral

structure Moderate (numeral : Numeral) : Prop where
  unsigned : numeral.negative = false
  coefficient_lt : numeral.coefficient < pow10 2000
  exponent_ge : -2000 ≤ numeral.exponent
  exponent_le : numeral.exponent ≤ 2000

theorem Moderate.point_small {numeral : Numeral} (moderate : numeral.Moderate) :
    ((Decimal.ofNumeral numeral).point - 1).natAbs < 655360 := by
  have length := length_decimalDigits_le (by decide) moderate.coefficient_lt
  have least := moderate.exponent_ge
  have greatest := moderate.exponent_le
  simp only [Decimal.ofNumeral]
  omega

end Numeral

/-! ## The shortest decimal of a magnitude -/

namespace Magnitude

theorem units_lt (magnitude : Magnitude) : magnitude.units < pow2 2098 := by
  have exponent := pow2_le_pow2 magnitude.exponent_le
  calc magnitude.units
      < pow2 53 * pow2 magnitude.exponent :=
        Nat.mul_lt_mul_of_pos_right magnitude.significand_lt (pow2_pos _)
    _ ≤ pow2 53 * pow2 2045 := Nat.mul_le_mul_left _ exponent
    _ = pow2 2098 := (pow2_add 53 2045).symm

theorem gridNumerator_lt (magnitude : Magnitude) :
    magnitude.gridNumerator < pow10 (632 + gridScale) := by
  have powers : pow2 2098 ≤ pow10 632 := by decide +kernel
  have units := Nat.lt_of_lt_of_le magnitude.units_lt powers
  rw [gridNumerator, pow10_add]
  exact Nat.mul_lt_mul_of_pos_right units (pow10_pos _)

theorem decimalLength_le (number : Nat) :
    decimalLength number ≤ number.log2 * 30103 / 100000 + 2 := by
  simp only [decimalLength]
  split
  · omega
  · split <;> omega

theorem gridDigits_le (magnitude : Magnitude) : magnitude.gridDigits ≤ 1200 := by
  have below : magnitude.gridNumerator / unitsPerOne < pow2 (4 * (632 + gridScale)) :=
    calc magnitude.gridNumerator / unitsPerOne
        ≤ magnitude.gridNumerator := Nat.div_le_self _ _
      _ < pow10 (632 + gridScale) := magnitude.gridNumerator_lt
      _ ≤ pow2 (4 * (632 + gridScale)) := pow10_le_pow2 _
  have bits := log2_le_of_lt_pow2 below
  have length := decimalLength_le (magnitude.gridNumerator / unitsPerOne)
  simp only [gridScale] at bits
  unfold gridDigits
  omega

theorem moderate_neighbours {magnitude : Magnitude} {dropped : Nat} (few : dropped ≤ 1200)
    {numeral : Numeral} (member : numeral ∈ magnitude.neighbours dropped) : numeral.Moderate := by
  have quotient := Nat.div_le_self magnitude.gridNumerator (pow10 dropped * unitsPerOne)
  have above := pow10_le_pow10 (show 632 + gridScale + 1 ≤ 2000 by decide)
  have step := pow10_succ (632 + gridScale)
  have bound := magnitude.gridNumerator_lt
  have least : -2000 ≤ (dropped : Int) - gridScale := by
    simp only [gridScale]
    omega
  have greatest : (dropped : Int) - gridScale ≤ 2000 := by omega
  have cases : numeral = ⟨false, magnitude.gridNumerator / (pow10 dropped * unitsPerOne),
        dropped - gridScale⟩ ∨
      numeral = ⟨false, magnitude.gridNumerator / (pow10 dropped * unitsPerOne) + 1,
        dropped - gridScale⟩ := by
    simp only [neighbours] at member
    split at member
    · simpa using member
    · exact .symm (by simpa using member)
  rcases cases with same | same <;> subst same
  · exact ⟨rfl, by simp only; omega, least, greatest⟩
  · exact ⟨rfl, by simp only; omega, least, greatest⟩

theorem moderate_exactNumeral (magnitude : Magnitude) : magnitude.exactNumeral.Moderate where
  unsigned := rfl
  coefficient_lt := by
    have powers : pow2 2098 * (pow10 1074 / unitsPerOne) ≤ pow10 2000 := by decide +kernel
    have positive : 0 < pow10 1074 / unitsPerOne := by decide +kernel
    exact Nat.lt_of_lt_of_le (Nat.mul_lt_mul_of_pos_right magnitude.units_lt positive) powers
  exponent_ge := by simp [exactNumeral]
  exponent_le := by simp [exactNumeral]

theorem exactNumeral_eq (magnitude : Magnitude) :
    magnitude.exactNumeral =
      ⟨false, magnitude.units * (pow10 1074 / unitsPerOne), -((1074 : Nat) : Int)⟩ := rfl

theorem toBinary64_exactNumeral (magnitude : Magnitude) :
    magnitude.exactNumeral.toBinary64 = .finite false magnitude := by
  have divides : pow10 1074 / unitsPerOne * unitsPerOne = pow10 1074 := by decide +kernel
  rw [exactNumeral_eq]
  apply Numeral.toBinary64_fraction
  rw [Nat.mul_assoc, divides]

theorem leastGiving_eq {give : Nat → Option α} (rounds low high : Nat) :
    ∃ place, leastGiving give rounds low high = give place := by
  induction rounds generalizing low high with
  | zero => exact ⟨high, rfl⟩
  | succ rounds induction =>
    simp only [leastGiving]
    split
    · exact ⟨high, rfl⟩
    · split
      · exact induction ..
      · exact induction ..

theorem exists_shortest (magnitude : Magnitude) :
    ∃ numeral : Numeral, magnitude.shortest = .ofNumeral numeral ∧ numeral.Moderate ∧
      numeral.toBinary64 = .finite false magnitude := by
  rcases @leastGiving_eq _ (fun kept => magnitude.onGrid? (magnitude.gridDigits - kept))
    5 1 17 with ⟨kept, found⟩
  simp only [shortest, found]
  cases onGrid : magnitude.onGrid? (magnitude.gridDigits - kept) with
  | none =>
    exact ⟨magnitude.exactNumeral, rfl, magnitude.moderate_exactNumeral,
      magnitude.toBinary64_exactNumeral⟩
  | some numeral =>
    have few : magnitude.gridDigits - kept ≤ 1200 := by
      have digits := magnitude.gridDigits_le
      omega
    have reads : magnitude.readsBack numeral = true := List.find?_some onGrid
    rw [readsBack, beq_iff_eq] at reads
    rw [onGrid?] at onGrid
    exact ⟨numeral, rfl, moderate_neighbours few (List.mem_of_find?_eq_some onGrid), reads⟩

/-- The text of the shortest decimal spells a numeral that reads back as the magnitude. -/
theorem spells_shortest (magnitude : Magnitude) :
    ∃ coefficient exponent, Numeral.Spells magnitude.shortest.text coefficient exponent ∧
      (Numeral.mk false coefficient exponent).toBinary64 = .finite false magnitude := by
  rcases magnitude.exists_shortest with ⟨numeral, same, moderate, value⟩
  rcases Decimal.readsBack_text (Decimal.isDigit_digits_ofNumeral numeral) moderate.point_small
    with ⟨coefficient, exponent, spells, read⟩
  refine ⟨coefficient, exponent, same ▸ spells, ?_⟩
  rcases numeral with ⟨negative, digits, power⟩
  cases moderate.unsigned
  rw [read, Decimal.toBinary64_ofNumeral, value]

theorem eq_zero {magnitude : Magnitude} (empty : magnitude.significand = 0) : magnitude = zero := by
  rcases magnitude with ⟨significand, exponent, below, bounded, canonical⟩
  simp only at empty
  subst empty
  rcases canonical with least | normal
  · subst least
    rfl
  · exact absurd normal (by decide)

end Magnitude

/-! ## The text of a value -/

namespace Binary64

def sizeText (magnitude : Magnitude) : List Char :=
  if magnitude.significand = 0 then ['0', '.', '0'] else magnitude.shortest.text

theorem text_positive (magnitude : Magnitude) :
    (finite false magnitude).text = sizeText magnitude := by
  simp only [text, sizeText, Bool.false_eq_true, ↓reduceIte]

theorem text_negative (magnitude : Magnitude) :
    (finite true magnitude).text = '-' :: sizeText magnitude := by
  simp only [text, sizeText, ↓reduceIte]

theorem spells_sizeText (magnitude : Magnitude) :
    ∃ coefficient exponent, Numeral.Spells (sizeText magnitude) coefficient exponent ∧
      ∀ negative, (Numeral.mk negative coefficient exponent).toBinary64 =
        .finite negative magnitude := by
  unfold sizeText
  split
  · rename_i empty
    refine ⟨_, _, Numeral.spells_point (List.cons_ne_nil '0' []) (by simp [isDigit])
      (show ∀ digit ∈ ['0'], isDigit digit = true by simp [isDigit]), ?_⟩
    rw [Magnitude.eq_zero empty]
    decide
  · rcases magnitude.spells_shortest with ⟨coefficient, exponent, spells, value⟩
    refine ⟨coefficient, exponent, spells, fun negative => ?_⟩
    cases negative with
    | false => exact value
    | true => exact Numeral.toBinary64_negative value

private theorem dropBlanksEnd_cons {character : Char} (visible : isBlank character = false)
    (rest : List Char) : dropBlanksEnd (character :: rest) = character :: dropBlanksEnd rest := by
  simp only [dropBlanksEnd, List.reverse_cons, List.dropWhile_append, List.dropWhile_cons, visible,
    Bool.false_eq_true, ↓reduceIte]
  split
  · rename_i empty
    rw [List.isEmpty_iff.mp empty]
    rfl
  · rw [List.reverse_append, List.reverse_singleton, List.singleton_append]

private theorem ofWord?_of_isDigit {unsigned : List Char} {sign : Bool} {first : Char}
    {rest characters : List Char} (taken : takeSign characters = (sign, unsigned))
    (begins : unsigned = first :: rest) (digit : isDigit first = true) :
    ofWord? characters = none := by
  have letters : ∀ digit ∈ ['0', '1', '2', '3', '4', '5', '6', '7', '8', '9'],
      digit.toLower ≠ 'i' ∧ digit.toLower ≠ 'n' := forall_mem_of_all (by decide)
  have other := letters first (mem_digits digit)
  have word {letter : Char} {word : List Char} (different : first.toLower ≠ letter) :
      String.ofList (unsigned.map Char.toLower) ≠ String.ofList (letter :: word) := by
    intro same
    rw [begins, String.ofList_inj] at same
    exact different (List.cons.inj same).1
  simp only [ofWord?, taken]
  split
  · exact absurd ‹_› (word other.1)
  · exact absurd ‹_› (word other.1)
  · exact absurd ‹_› (word other.2)
  · rfl

theorem realPrefix_text (negative : Bool) (magnitude : Magnitude) :
    realPrefix (finite negative magnitude).text = finite negative magnitude := by
  rcases spells_sizeText magnitude with ⟨coefficient, exponent, spells, value⟩
  rcases spells.begins with ⟨first, rest, begins, digit, -⟩
  have visible := isBlank_of_isDigit digit
  cases negative with
  | false =>
    have word : ofWord? (dropBlanksEnd (first :: rest)) = none := by
      rw [dropBlanksEnd_cons visible]
      exact ofWord?_of_isDigit (takeSign_of_isDigit digit) rfl digit
    have scanned := spells.scanned
    rw [begins] at scanned
    simp only [text_positive, begins, realPrefix, dropBlanks_of_isDigit digit, word, scanned, value]
  | true =>
    have word : ofWord? (dropBlanksEnd ('-' :: first :: rest)) = none := by
      rw [dropBlanksEnd_cons (by decide), dropBlanksEnd_cons visible]
      exact ofWord?_of_isDigit (takeSign_minus _) rfl digit
    have scanned := spells.scanned_minus
    rw [begins] at scanned
    have front : dropBlanks ('-' :: first :: rest) = '-' :: first :: rest := rfl
    simp only [text_negative, begins, realPrefix, front, word, scanned, value]

end Binary64
end RecordGraph
