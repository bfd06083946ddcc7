import RecordGraph.Proofs.Binary64.Rounding
import RecordGraph.Proofs.Text.Runs
import RecordGraph.Value.Literal

/-!
# Scanning written numerals

A numeral is written as digits, then a point with more digits or nothing, then an exponent or
nothing. Such a text is scanned to its end, begins with a digit, and is marked as a real behind
that digit.
-/

namespace RecordGraph
open Text

namespace Numeral

theorem exponentSize_eq {digits : List Char} (small : number digits < 655360) :
    exponentSize digits = number digits := by
  have general (leading : Nat) (within : numberFrom leading digits < 655360) :
      digits.foldl
          (fun size digit => if size < 65536 then 10 * size + digitValue digit else size) leading =
        numberFrom leading digits := by
    clear small
    induction digits generalizing leading with
    | nil => rfl
    | cons digit digits induction =>
      have next := le_numberFrom (10 * leading + digitValue digit) digits
      simp only [numberFrom, List.foldl_cons] at within next ⊢
      rw [if_pos (by omega)]
      exact induction _ within
  exact general 0 small

theorem takeExponent_decimalText {exponent : Int} (small : exponent.natAbs < 655360) :
    takeExponent ('e' :: decimalText exponent) = (exponent, []) := by
  have digits := takeWhile_decimalDigits exponent.natAbs stops_nil
  have digit : ∀ character ∈ decimalDigits exponent.natAbs, isDigit character = true :=
    fun _ => isDigit_of_mem_decimalDigits
  have behind := dropWhile_run digit stops_nil
  rw [List.append_nil] at digits behind
  have size := exponentSize_eq ((number_decimalDigits exponent.natAbs).symm ▸ small)
  rw [number_decimalDigits] at size
  simp only [takeExponent, takeSign_decimalText, digits, behind, size]
  rw [if_pos ⟨.inl trivial, decimalDigits_ne_nil _⟩]
  simp only [Prod.mk.injEq, and_true, decide_eq_true_eq]
  split <;> omega

theorem takeFraction_point {digits tail : List Char}
    (all : ∀ digit ∈ digits, isDigit digit = true) (stops : Stops isDigit tail) :
    takeFraction true ('.' :: (digits ++ tail)) = (digits, tail) := by
  simp [takeFraction, takeWhile_run all stops, dropWhile_run all stops]

theorem takeFraction_other {tail : List Char} (other : tail.head? ≠ some '.') :
    takeFraction true tail = ([], tail) := by
  unfold takeFraction
  split
  · simp at other
  · rfl

structure Spells (text : List Char) (coefficient : Nat) (exponent : Int) : Prop where
  scanned : scan? text = some (⟨false, coefficient, exponent⟩, [])
  begins : ∃ first rest, text = first :: rest ∧ isDigit first = true ∧ rest.any marksReal = true
  characters : ∀ character ∈ text, isDigit character = true ∨ character ∈ ['.', 'e', '-']

private theorem takeSign_digits {digits : List Char} (present : digits ≠ [])
    (all : ∀ digit ∈ digits, isDigit digit = true) (behind : List Char) :
    takeSign (digits ++ behind) = (false, digits ++ behind) := by
  cases digits with
  | nil => exact absurd rfl present
  | cons digit digits => exact takeSign_of_isDigit (all digit List.mem_cons_self)

theorem Spells.scanned_minus {text : List Char} {coefficient : Nat} {exponent : Int}
    (spells : Spells text coefficient exponent) :
    scan? ('-' :: text) = some (⟨true, coefficient, exponent⟩, []) := by
  rcases spells.begins with ⟨first, rest, begins, digit, -⟩
  have scanned := spells.scanned
  rw [begins] at scanned ⊢
  simp only [scan?, takeSign_of_isDigit digit, takeSign_minus] at scanned ⊢
  split at scanned
  · cases scanned
  · simp_all

theorem scan?_parts {whole behind fraction tail : List Char} {exponent : Int}
    (present : whole ≠ []) (digits : ∀ digit ∈ whole, isDigit digit = true)
    (stops : Stops isDigit behind) (fractionTaken : takeFraction true behind = (fraction, tail))
    (exponentTaken : takeExponent tail = (exponent, [])) :
    scan? (whole ++ behind) =
      some (⟨false, number (whole ++ fraction), exponent - fraction.length⟩, []) := by
  simp only [scan?, takeSign_digits present digits, takeWhile_run digits stops,
    dropWhile_run digits stops, present, ne_eq, not_false_eq_true, decide_true, fractionTaken,
    exponentTaken, longNumber_eq, false_and, ↓reduceIte]

private theorem begins_parts {whole behind : List Char} (present : whole ≠ [])
    (digits : ∀ digit ∈ whole, isDigit digit = true) (marked : behind.any marksReal = true) :
    ∃ first rest, whole ++ behind = first :: rest ∧ isDigit first = true ∧
      rest.any marksReal = true := by
  cases whole with
  | nil => exact absurd rfl present
  | cons first whole =>
    refine ⟨first, whole ++ behind, rfl, digits first List.mem_cons_self, ?_⟩
    rw [List.any_append, marked, Bool.or_true]

theorem isDigit_or_mem_decimalText {exponent : Int} {character : Char}
    (member : character ∈ decimalText exponent) :
    isDigit character = true ∨ character ∈ ['.', 'e', '-'] := by
  unfold decimalText at member
  split at member
  · rcases List.mem_cons.mp member with sign | member
    · exact .inr (by simp [sign])
    · exact .inl (isDigit_of_mem_decimalDigits member)
  · exact .inl (isDigit_of_mem_decimalDigits member)

theorem spells_point {whole fraction : List Char} (present : whole ≠ [])
    (digits : ∀ digit ∈ whole, isDigit digit = true)
    (fractionDigits : ∀ digit ∈ fraction, isDigit digit = true) :
    Spells (whole ++ '.' :: fraction) (number (whole ++ fraction)) (-fraction.length) where
  scanned := by
    have taken := takeFraction_point fractionDigits stops_nil
    rw [List.append_nil] at taken
    simpa using scan?_parts present digits (stops_cons.mpr (by decide)) taken rfl
  begins := begins_parts present digits (by simp [marksReal])
  characters character member := by
    rcases List.mem_append.mp member with member | member
    · exact .inl (digits character member)
    · rcases List.mem_cons.mp member with point | member
      · exact .inr (by simp [point])
      · exact .inl (fractionDigits character member)

theorem spells_exponent {whole : List Char} {exponent : Int} (present : whole ≠ [])
    (digits : ∀ digit ∈ whole, isDigit digit = true) (small : exponent.natAbs < 655360) :
    Spells (whole ++ 'e' :: decimalText exponent) (number whole) exponent where
  scanned := by
    have taken := takeExponent_decimalText small
    simpa using scan?_parts present digits (stops_cons.mpr (by decide))
      (takeFraction_other (by simp)) taken
  begins := begins_parts present digits (by simp [marksReal])
  characters character member := by
    rcases List.mem_append.mp member with member | member
    · exact .inl (digits character member)
    · rcases List.mem_cons.mp member with mark | member
      · exact .inr (by simp [mark])
      · exact isDigit_or_mem_decimalText member

theorem spells_point_exponent {whole fraction : List Char} {exponent : Int}
    (present : whole ≠ []) (digits : ∀ digit ∈ whole, isDigit digit = true)
    (fractionDigits : ∀ digit ∈ fraction, isDigit digit = true)
    (small : exponent.natAbs < 655360) :
    Spells (whole ++ '.' :: (fraction ++ 'e' :: decimalText exponent))
      (number (whole ++ fraction)) (exponent - fraction.length) where
  scanned :=
    scan?_parts present digits (stops_cons.mpr (by decide))
      (takeFraction_point fractionDigits (stops_cons.mpr (by decide)))
      (takeExponent_decimalText small)
  begins := begins_parts present digits (by simp [marksReal])
  characters character member := by
    rcases List.mem_append.mp member with member | member
    · exact .inl (digits character member)
    · rcases List.mem_cons.mp member with point | member
      · exact .inr (by simp [point])
      · rcases List.mem_append.mp member with member | member
        · exact .inl (fractionDigits character member)
        · rcases List.mem_cons.mp member with mark | member
          · exact .inr (by simp [mark])
          · exact isDigit_or_mem_decimalText member

end Numeral
end RecordGraph
