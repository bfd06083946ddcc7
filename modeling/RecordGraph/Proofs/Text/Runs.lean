import RecordGraph.Value.Reading

/-!
# Runs of characters

A scanner takes a run of characters that pass a test, and the run ends where the text ends or where
a character fails the test. The digits of a number are such a run, and they read back as the number.
-/

namespace RecordGraph.Text

/-- What holds of the members of a list is decided along the list, also where the type of the
members is finite. -/
theorem forall_mem_of_all {holds : α → Prop} [DecidablePred holds] {list : List α}
    (all : list.all (fun member => decide (holds member)) = true) : ∀ member ∈ list, holds member :=
  fun member inside => of_decide_eq_true (List.all_eq_true.mp all member inside)

def Stops (test : Char → Bool) (rest : List Char) : Prop :=
  ∀ character, rest.head? = some character → test character = false

section

variable {test : Char → Bool} {run rest : List Char}

@[simp] theorem stops_nil : Stops test [] := nofun

@[simp] theorem stops_cons {character : Char} :
    Stops test (character :: rest) ↔ test character = false := by
  simp [Stops]

theorem stops_append (fails : ∀ character ∈ run, test character = false)
    (stops : Stops test rest) : Stops test (run ++ rest) := by
  cases run with
  | nil => exact stops
  | cons character run => exact stops_cons.mpr (fails character List.mem_cons_self)

theorem stops_dropWhile (test : Char → Bool) (text : List Char) :
    Stops test (text.dropWhile test) := by
  intro first head
  have fails := List.head?_dropWhile_not test text
  rw [head] at fails
  exact fails

theorem takeWhile_run (passes : ∀ character ∈ run, test character = true)
    (stops : Stops test rest) : (run ++ rest).takeWhile test = run := by
  rw [List.takeWhile_append_of_pos passes]
  cases rest with
  | nil => simp
  | cons character rest => simp [stops_cons.mp stops]

theorem dropWhile_run (passes : ∀ character ∈ run, test character = true)
    (stops : Stops test rest) : (run ++ rest).dropWhile test = rest := by
  rw [List.dropWhile_append_of_pos passes]
  cases rest with
  | nil => rfl
  | cons character rest => simp [stops_cons.mp stops]

end

/-! ## Digits -/

theorem isDigit_iff {character : Char} :
    isDigit character = true ↔ 48 ≤ character.toNat ∧ character.toNat ≤ 57 := by
  simp only [isDigit, Bool.and_eq_true, decide_eq_true_eq, Char.le_def, UInt32.le_iff_toNat_le]
  rfl

theorem isDigit_of_mem_decimalDigits {value : Nat} {digit : Char}
    (member : digit ∈ decimalDigits value) : isDigit digit = true := by
  have digits := Nat.isDigit_of_mem_toDigits (by decide) (by decide) member
  simp only [Char.isDigit, Bool.and_eq_true, decide_eq_true_eq, ge_iff_le,
    UInt32.le_iff_toNat_le] at digits
  exact isDigit_iff.mpr digits

theorem decimalDigits_ne_nil (value : Nat) : decimalDigits value ≠ [] :=
  Nat.toDigits_ne_nil

theorem length_decimalDigits_le {value length : Nat} (positive : 0 < length)
    (below : value < pow10 length) : (decimalDigits value).length ≤ length :=
  (Nat.length_toDigits_le_iff (by decide) positive).mpr below

theorem numberFrom_eq (leading : Nat) (digits : List Char) :
    numberFrom leading digits = Nat.ofDigitChars 10 digits leading :=
  Nat.ofDigitChars_eq_foldl.symm

theorem le_numberFrom (leading : Nat) (digits : List Char) :
    leading ≤ numberFrom leading digits := by
  induction digits generalizing leading with
  | nil => exact Nat.le_refl _
  | cons digit digits induction =>
    have rest := induction (10 * leading + digitValue digit)
    simp only [numberFrom, List.foldl_cons] at rest ⊢
    omega

@[simp] theorem number_decimalDigits (value : Nat) : number (decimalDigits value) = value := by
  rw [number, numberFrom_eq]
  exact Nat.ofDigitChars_ten_toDigits

@[simp] theorem number_zeros_append (count : Nat) (digits : List Char) :
    number (List.replicate count '0' ++ digits) = number digits := by
  simp [number, numberFrom_eq, Nat.ofDigitChars_append]

@[simp] theorem number_append_zeros (count : Nat) (digits : List Char) :
    number (digits ++ List.replicate count '0') = number digits * pow10 count := by
  simp [number, numberFrom_eq, Nat.ofDigitChars_append, pow10, Nat.mul_comm]

theorem mem_digits {character : Char} (digit : isDigit character = true) :
    character ∈ ['0', '1', '2', '3', '4', '5', '6', '7', '8', '9'] := by
  have bounds := isDigit_iff.mp digit
  rw [← Char.ofNat_toNat character]
  generalize character.toNat = code at bounds ⊢
  have cases : code = 48 ∨ code = 49 ∨ code = 50 ∨ code = 51 ∨ code = 52 ∨ code = 53 ∨
      code = 54 ∨ code = 55 ∨ code = 56 ∨ code = 57 := by omega
  rcases cases with h | h | h | h | h | h | h | h | h | h <;> subst h <;> decide

theorem isBlank_of_isDigit {character : Char} (digit : isDigit character = true) :
    isBlank character = false := by
  have none : ∀ digit ∈ ['0', '1', '2', '3', '4', '5', '6', '7', '8', '9'],
      isBlank digit = false := forall_mem_of_all (by decide)
  exact none character (mem_digits digit)

/-! ## Signs and integers -/

@[simp] theorem takeSign_minus (rest : List Char) : takeSign ('-' :: rest) = (true, rest) := rfl

theorem takeSign_of_isDigit {character : Char} {rest : List Char}
    (digit : isDigit character = true) :
    takeSign (character :: rest) = (false, character :: rest) := by
  unfold takeSign
  split
  · simp_all [isDigit]
  · simp_all [isDigit]
  · rfl

theorem dropBlanks_of_isDigit {character : Char} {rest : List Char}
    (digit : isDigit character = true) :
    dropBlanks (character :: rest) = character :: rest := by
  simp [dropBlanks, isBlank_of_isDigit digit]

theorem exists_decimalDigits (value : Nat) :
    ∃ first rest, decimalDigits value = first :: rest ∧ isDigit first = true := by
  cases digits : decimalDigits value with
  | nil => exact absurd digits (decimalDigits_ne_nil value)
  | cons first rest =>
    exact ⟨first, rest, rfl, isDigit_of_mem_decimalDigits (digits ▸ List.mem_cons_self)⟩

theorem takeWhile_decimalDigits (value : Nat) {rest : List Char} (stops : Stops isDigit rest) :
    (decimalDigits value ++ rest).takeWhile isDigit = decimalDigits value :=
  takeWhile_run (fun _ => isDigit_of_mem_decimalDigits) stops

theorem takeSign_decimalText (value : Int) :
    takeSign (decimalText value) = (decide (value < 0), decimalDigits value.natAbs) := by
  unfold decimalText
  split
  · simp [*]
  · rcases exists_decimalDigits value.natAbs with ⟨first, rest, digits, digit⟩
    rw [digits, takeSign_of_isDigit digit]
    simp [*]

theorem dropBlanks_decimalText (value : Int) :
    dropBlanks (decimalText value) = decimalText value := by
  unfold decimalText
  split
  · rfl
  · rcases exists_decimalDigits value.natAbs with ⟨first, rest, digits, digit⟩
    rw [digits, dropBlanks_of_isDigit digit]

theorem exactIntegerPrefix_decimalText (value : Int) :
    exactIntegerPrefix (decimalText value) = value := by
  have digits := takeWhile_decimalDigits value.natAbs stops_nil
  rw [List.append_nil] at digits
  simp only [exactIntegerPrefix, dropBlanks_decimalText, takeSign_decimalText, digits,
    number_decimalDigits, decide_eq_true_eq]
  split <;> omega

theorem integerPrefix_decimalText (value : Int64) :
    integerPrefix (decimalText value.toInt) = value := by
  have least := value.le_toInt
  have greatest := value.toInt_lt
  rw [integerPrefix_eq, exactIntegerPrefix_decimalText, clampInt]
  have inside : max leastInt (min greatestInt value.toInt) = value.toInt := by
    simp only [leastInt, greatestInt, pow2, Nat.pow_eq] at *
    omega
  rw [inside, Int64.ofInt_toInt]

end RecordGraph.Text
