import Mathlib
import RecordGraph.Document.Item
import RecordGraph.Document.Quoting
import RecordGraph.Proofs.Binary64.Reading
import RecordGraph.Proofs.Document.Cursor

/-!
# Written values read back

A value in a document is followed by a comma or a line end, and neither can belong to it. What is
read up to there is the value that was written, but for the carriage returns of a text.
-/

namespace RecordGraph
open Text

namespace Value

/-- The variants that a document can hold: integers, finite reals and texts. -/
def Writable : Value → Prop
  | int _ => True
  | real (.finite _ _) => True
  | text _ => True
  | _ => False

def withoutReturns : Value → Value
  | text value => text (String.ofList (value.toList.filter (· != '\r')))
  | value => value

/-! ## Literals -/

private theorem ofLiteral_integer {first : Char} {rest : List Char}
    (begins : beginsNumber first = true) (unmarked : rest.any marksReal = false) :
    ofLiteral (String.ofList (first :: rest)) = int (integerPrefix (first :: rest)) := by
  simp [ofLiteral, begins, unmarked]

private theorem ofLiteral_real {first : Char} {rest : List Char}
    (begins : beginsNumber first = true) (marked : rest.any marksReal = true) :
    ofLiteral (String.ofList (first :: rest)) = real (realPrefix (first :: rest)) := by
  simp [ofLiteral, begins, marked]

private theorem beginsNumber_of_isDigit {character : Char} (digit : isDigit character = true) :
    beginsNumber character = true := by
  have all : ∀ digit ∈ ['0', '1', '2', '3', '4', '5', '6', '7', '8', '9'],
      beginsNumber digit = true := forall_mem_of_all (by decide)
  exact all character (mem_digits digit)

private theorem marksReal_of_isDigit {character : Char} (digit : isDigit character = true) :
    marksReal character = false := by
  have all : ∀ digit ∈ ['0', '1', '2', '3', '4', '5', '6', '7', '8', '9'],
      marksReal digit = false := forall_mem_of_all (by decide)
  exact all character (mem_digits digit)

theorem ofLiteral_decimalText (value : Int64) :
    ofLiteral (String.ofList (decimalText value.toInt)) = int value := by
  have unmarked : ∀ digit ∈ decimalDigits value.toInt.natAbs, ¬ marksReal digit = true := by
    intro digit member
    rw [marksReal_of_isDigit (isDigit_of_mem_decimalDigits member)]
    exact Bool.false_ne_true
  have shape : ∃ first rest, decimalText value.toInt = first :: rest ∧
      beginsNumber first = true ∧ rest.any marksReal = false := by
    unfold decimalText
    split
    · exact ⟨'-', _, rfl, rfl, List.any_eq_false.mpr unmarked⟩
    · rcases exists_decimalDigits value.toInt.natAbs with ⟨first, rest, text, digit⟩
      rw [text] at unmarked
      exact ⟨first, rest, text, beginsNumber_of_isDigit digit,
        List.any_eq_false.mpr fun digit member => unmarked digit (List.mem_cons_of_mem _ member)⟩
  rcases shape with ⟨first, rest, text, begins, unmarked⟩
  rw [text, ofLiteral_integer begins unmarked, ← text, integerPrefix_decimalText]

theorem ofLiteral_finite (negative : Bool) (magnitude : Magnitude) :
    ofLiteral (String.ofList (Binary64.finite negative magnitude).text) =
      real (.finite negative magnitude) := by
  rcases Binary64.spells_sizeText magnitude with ⟨_, _, spells, -⟩
  rcases spells.begins with ⟨first, rest, text, digit, marked⟩
  have shape : ∃ first rest, (Binary64.finite negative magnitude).text = first :: rest ∧
      beginsNumber first = true ∧ rest.any marksReal = true := by
    cases negative with
    | false =>
      rw [Binary64.text_positive]
      exact ⟨first, rest, text, beginsNumber_of_isDigit digit, marked⟩
    | true =>
      rw [Binary64.text_negative, text]
      exact ⟨'-', first :: rest, rfl, rfl, by simp [marked]⟩
  rcases shape with ⟨first, rest, text, begins, marked⟩
  rw [text, ofLiteral_real begins marked, ← text, Binary64.realPrefix_text]

structure IsLiteral (value : Value) : Prop where
  reads : ofLiteral value.written = value
  begins : ∃ first rest, value.written.toList = first :: rest ∧
    (isDigit first = true ∨ first = '-')
  characters : ∀ character ∈ value.written.toList,
    isDigit character = true ∨ character ∈ ['.', 'e', '-']

theorem isLiteral_int (value : Int64) : (int value).IsLiteral where
  reads := ofLiteral_decimalText value
  begins := by
    simp only [written, toText, String.toList_ofList, decimalText]
    split
    · exact ⟨'-', _, rfl, .inr rfl⟩
    · rcases exists_decimalDigits value.toInt.natAbs with ⟨first, rest, text, digit⟩
      exact ⟨first, rest, text, .inl digit⟩
  characters character member := by
    simp only [written, toText, String.toList_ofList] at member
    exact Numeral.isDigit_or_mem_decimalText member

theorem isLiteral_real (negative : Bool) (magnitude : Magnitude) :
    (real (.finite negative magnitude)).IsLiteral := by
  rcases Binary64.spells_sizeText magnitude with ⟨_, _, spells, -⟩
  rcases spells.begins with ⟨first, rest, text, digit, -⟩
  refine ⟨ofLiteral_finite negative magnitude, ?_, fun character member => ?_⟩
  · simp only [written, toText, String.toList_ofList]
    cases negative with
    | false =>
      rw [Binary64.text_positive]
      exact ⟨first, rest, text, .inl digit⟩
    | true =>
      rw [Binary64.text_negative]
      exact ⟨'-', _, rfl, .inr rfl⟩
  · simp only [written, toText, String.toList_ofList] at member
    cases negative with
    | false =>
      rw [Binary64.text_positive] at member
      exact spells.characters character member
    | true =>
      rw [Binary64.text_negative] at member
      rcases List.mem_cons.mp member with sign | member
      · exact .inr (by simp [sign])
      · exact spells.characters character member

theorem Writable.cases {value : Value} (writable : value.Writable) :
    (value.IsLiteral ∧ value.withoutReturns = value) ∨ ∃ content, value = text content := by
  cases value with
  | absent => exact writable.elim
  | handle word => exact writable.elim
  | int value => exact .inl ⟨isLiteral_int value, rfl⟩
  | real value =>
    cases value with
    | notANumber => exact writable.elim
    | infinite negative => exact writable.elim
    | finite negative magnitude => exact .inl ⟨isLiteral_real negative magnitude, rfl⟩
  | text content => exact .inr ⟨content, rfl⟩

/-! ## Texts -/

structure IsWord (characters : List Char) : Prop where
  begins : ∃ first others, characters = first :: others ∧ isAlphabetic first = true
  characters : ∀ character ∈ characters, isWordCharacter character = true

theorem written_text (content : String) :
    (content = "" ∧ (text content).written = "") ∨
      (text content).written.toList = quote content.toList ∨
      ((text content).written.toList = content.toList ∧ IsWord content.toList) := by
  simp only [written]
  cases characters : content.toList with
  | nil =>
    exact .inl ⟨String.toList_eq_nil_iff.mp characters, String.toList_eq_nil_iff.mp characters⟩
  | cons first others =>
    split
    · exact .inr (.inl String.toList_ofList)
    · rename_i bare
      simp only [needsQuotes, Bool.not_eq_true, Bool.not_eq_false', Bool.and_eq_true,
        List.all_eq_true] at bare
      exact .inr (.inr ⟨characters, ⟨first, others, rfl, bare.1⟩, bare.2⟩)

theorem withoutReturns_of_written_empty {value : Value} (writable : value.Writable)
    (empty : value.written = "") : value.withoutReturns = text "" := by
  rcases writable.cases with ⟨literal, -⟩ | ⟨content, rfl⟩
  · rcases literal.begins with ⟨first, rest, begins, -⟩
    rw [empty] at begins
    cases begins
  · rcases written_text content with ⟨rfl, -⟩ | quoted | ⟨bare, word⟩
    · rfl
    · rw [empty] at quoted
      cases quoted
    · rcases word.begins with ⟨first, others, begins, -⟩
      rw [empty, begins] at bare
      cases bare

end Value

namespace Document

/-! ## What follows a value -/

def Ended (rest : List Char) : Prop :=
  ∃ behind, rest = ',' :: behind ∨ rest = '\n' :: behind

/-! ## Texts -/

theorem readText_ended {rest : List Char} (ended : Ended rest) (line : Nat) (read : List Char) :
    readText false line read rest = (read.reverse, ⟨line, rest⟩) := by
  rcases ended with ⟨behind, rfl | rfl⟩
  · simp [readText, isGap, textStops]
  · simp [readText]

theorem readText_quoted {character : Char}
    (plain : character ∉ ['\\', '"', '\r', '\n']) (line : Nat) (read rest : List Char) :
    readText true line read (character :: rest) =
      readText true line (character :: read) rest := by
  simp only [List.mem_cons, List.not_mem_nil, or_false, not_or] at plain
  rcases plain with ⟨backslash, quote, carriage, feed⟩
  rw [readText.eq_def]
  split <;> simp_all

theorem readText_bare {character : Char}
    (plain : character ∉ ['\\', '"', '\r', '\n', ' ', '\t'] ++ textStops)
    (line : Nat) (read rest : List Char) :
    readText false line read (character :: rest) =
      readText false line (character :: read) rest := by
  simp only [List.mem_append, List.mem_cons, List.not_mem_nil, or_false, not_or] at plain
  rcases plain with ⟨⟨backslash, quote, carriage, feed, space, tab⟩, stops⟩
  rw [readText.eq_def]
  split <;> simp_all [isGap]

theorem readText_escape (character : Char) (line : Nat) (read rest : List Char) :
    readText true line read (escape character ++ rest) =
      readText true line ([character].filter (· != '\r') ++ read) rest := by
  unfold escape
  split
  · simp [readText]
  · simp [readText]
  · simp [readText]
  · simp [readText]
  · simp
  · rename_i backslash quote feed tab carriage
    have stays : [character].filter (· != '\r') = [character] := by simpa using carriage
    rw [stays]
    exact readText_quoted (by simp_all) line read rest

theorem readText_escapes (characters rest : List Char) (line : Nat) (read : List Char) :
    readText true line read (characters.flatMap escape ++ rest) =
      readText true line ((characters.filter (· != '\r')).reverse ++ read) rest := by
  induction characters generalizing read with
  | nil => rfl
  | cons character characters induction =>
    rw [List.flatMap_cons, List.append_assoc, readText_escape, induction]
    by_cases carriage : character = '\r' <;> simp [carriage]

theorem readText_quote (characters rest : List Char) (line : Nat) :
    readText false line [] (quote characters ++ rest) =
      readText false line (characters.filter (· != '\r')).reverse rest := by
  rw [quote, List.cons_append, readText, List.append_assoc, Bool.not_false, readText_escapes,
    List.append_nil, List.singleton_append, readText, Bool.not_true]

theorem plain_of_isWordCharacter {character : Char} (word : isWordCharacter character = true) :
    character ∉ ['\\', '"', '\r', '\n', ' ', '\t'] ++ textStops := by
  have strange : ∀ character ∈ ['\\', '"', '\r', '\n', ' ', '\t'] ++ textStops,
      isWordCharacter character = false := forall_mem_of_all (by decide +kernel)
  intro member
  rw [strange character member] at word
  cases word

theorem filter_returns {word : List Char}
    (bare : ∀ character ∈ word, isWordCharacter character = true) :
    word.filter (· != '\r') = word := by
  refine List.filter_eq_self.mpr fun character member => bne_iff_ne.mpr ?_
  rintro rfl
  exact plain_of_isWordCharacter (bare '\r' member) (by decide)

theorem readText_word {word : List Char}
    (bare : ∀ character ∈ word, isWordCharacter character = true)
    (rest : List Char) (line : Nat) (read : List Char) :
    readText false line read (word ++ rest) = readText false line (word.reverse ++ read) rest := by
  induction word generalizing read with
  | nil => rfl
  | cons character word induction =>
    rw [List.cons_append, readText_bare (plain_of_isWordCharacter (bare _ List.mem_cons_self)),
      induction fun character member => bare character (List.mem_cons_of_mem _ member)]
    simp

theorem not_isGap_of_plain {character : Char}
    (plain : character ∉ ['\\', '"', '\r', '\n', ' ', '\t'] ++ textStops) :
    isGap character = false := by
  simp_all [isGap]

/-! ## Values -/

theorem beginsText_of_isAlphabetic {character : Char} (letter : isAlphabetic character = true) :
    beginsText character = true := by
  have ranges : ∀ range ∈ alphabeticCodes, 128 ≤ range.1 ∨ (65 ≤ range.1 ∧ range.2 ≤ 90) ∨
      (97 ≤ range.1 ∧ range.2 ≤ 122) := forall_mem_of_all (by decide +kernel)
  rcases (CodePoints.includes_iff ..).mp letter with ⟨range, member, least, greatest⟩
  simp only [beginsText, Bool.or_eq_true, decide_eq_true_eq]
  rcases ranges range member with beyond | ascii
  · exact .inl (.inr (by omega))
  · refine .inl (.inl ?_)
    have letter : (65 ≤ character.toNat ∧ character.toNat ≤ 90) ∨
        (97 ≤ character.toNat ∧ character.toNat ≤ 122) := by omega
    simp only [Char.isAlpha, Char.isUpper, Char.isLower, Bool.or_eq_true, Bool.and_eq_true,
      decide_eq_true_eq, ge_iff_le, UInt32.le_iff_toNat_le]
    exact letter

theorem not_beginsText_of_isLiteral {character : Char}
    (number : isDigit character = true ∨ character = '-') : beginsText character = false := by
  have all : ∀ digit ∈ ['0', '1', '2', '3', '4', '5', '6', '7', '8', '9', '-'],
      beginsText digit = false := forall_mem_of_all (by decide)
  apply all
  rcases number with digit | minus
  · exact List.mem_append_left ['-'] (mem_digits digit)
  · simp [minus]

theorem not_literalStop_of_isLiteral {character : Char}
    (number : isDigit character = true ∨ character ∈ ['.', 'e', '-']) :
    literalStops.contains character = false := by
  have all : ∀ digit ∈ ['0', '1', '2', '3', '4', '5', '6', '7', '8', '9', '.', 'e', '-'],
      literalStops.contains digit = false := forall_mem_of_all (by decide)
  apply all
  rcases number with digit | sign
  · exact List.mem_append_left ['.', 'e', '-'] (mem_digits digit)
  · exact List.mem_append_right ['0', '1', '2', '3', '4', '5', '6', '7', '8', '9'] sign

theorem Ended.stops {rest : List Char} (ended : Ended rest) {test : Char → Bool}
    (comma : test ',' = false) (feed : test '\n' = false) : Stops test rest := by
  rcases ended with ⟨behind, rfl | rfl⟩
  · exact stops_cons.mpr comma
  · exact stops_cons.mpr feed

theorem not_isGap_of_isLiteral {character : Char}
    (number : isDigit character = true ∨ character = '-') : isGap character = false := by
  have all : ∀ digit ∈ ['0', '1', '2', '3', '4', '5', '6', '7', '8', '9', '-'],
      isGap digit = false := forall_mem_of_all (by decide)
  apply all
  rcases number with digit | minus
  · exact List.mem_append_left ['-'] (mem_digits digit)
  · simp [minus]

theorem stops_written {value : Value} (writable : value.Writable) {rest : List Char}
    (ended : Ended rest) : Stops isGap (value.written.toList ++ rest) := by
  rcases writable.cases with ⟨literal, -⟩ | ⟨content, rfl⟩
  · rcases literal.begins with ⟨first, others, begins, number⟩
    rw [begins, List.cons_append, stops_cons]
    exact not_isGap_of_isLiteral number
  · rcases Value.written_text content with ⟨-, empty⟩ | quoted | ⟨bare, word⟩
    · rw [empty]
      exact ended.stops rfl rfl
    · rw [quoted, quote, List.cons_append, stops_cons]
      rfl
    · rw [bare]
      exact stops_append (fun character member =>
        not_isGap_of_plain (plain_of_isWordCharacter (word.characters character member)))
        (ended.stops rfl rfl)

theorem Ended.stands {rest : List Char} (ended : Ended rest) {stops : List Char}
    (comma : stops.contains ',' = true) (feed : stops.contains '\n' = true) :
    Scanner.Stands stops rest := by
  rcases ended with ⟨behind, same | same⟩
  · exact ⟨',', behind, same, comma⟩
  · exact ⟨'\n', behind, same, feed⟩

namespace Scanner

variable {rest : List Char} (ended : Ended rest) (line : Nat)

include ended

private theorem run_literal {literal : List Char}
    (characters : ∀ character ∈ literal, literalStops.contains character = false) :
    Scanner.literal.run ⟨line, literal ++ rest⟩ =
      .ok (.ofLiteral (String.ofList literal)) ⟨line, rest⟩ := by
  have taken := run_takeUntil rfl characters (ended.stands rfl rfl) line
  simp only [Scanner.literal, EStateM.run_bind, taken]
  rfl

private theorem run_number {value : Value} (literal : value.IsLiteral) :
    Scanner.value.run ⟨line, value.written.toList ++ rest⟩ = .ok value ⟨line, rest⟩ := by
  have scanned := run_literal ended line fun character member =>
    not_literalStop_of_isLiteral (literal.characters character member)
  rw [String.ofList_toList, literal.reads] at scanned
  rcases literal.begins with ⟨first, others, begins, number⟩
  have other := not_beginsText_of_isLiteral number
  rw [begins, List.cons_append] at scanned ⊢
  simp only [Scanner.value, EStateM.run_bind, EStateM.run_get, Cursor.peek_cons, other,
    Bool.false_eq_true, ↓reduceIte, scanned]

omit ended in
private theorem run_text {characters read : List Char} {first : Char} {others : List Char}
    (begins : characters = first :: others) (text : beginsText first = true)
    (reads : readText false line [] (characters ++ rest) = (read, ⟨line, rest⟩)) :
    Scanner.value.run ⟨line, characters ++ rest⟩ =
      .ok (.text (String.ofList read)) ⟨line, rest⟩ := by
  rw [begins, List.cons_append] at reads ⊢
  simp only [Scanner.value, EStateM.run_bind, EStateM.run_get, Cursor.peek_cons, text,
    ↓reduceIte, Scanner.text, EStateM.run_modifyGet, reads]

private theorem run_nothing :
    Scanner.value.run ⟨line, rest⟩ = .ok (.text "") ⟨line, rest⟩ := by
  have scanned := @run_literal _ ended line [] nofun
  rw [List.nil_append] at scanned
  rcases ended with ⟨behind, rfl | rfl⟩ <;> exact scanned

theorem run_value {value : Value} (writable : value.Writable) :
    Scanner.value.run ⟨line, value.written.toList ++ rest⟩ =
      .ok value.withoutReturns ⟨line, rest⟩ := by
  rcases writable.cases with ⟨literal, same⟩ | ⟨content, rfl⟩
  · rw [same]
    exact run_number ended line literal
  · rcases Value.written_text content with ⟨rfl, empty⟩ | quoted | ⟨bare, word⟩
    · rw [empty]
      exact run_nothing ended line
    · have reads := readText_quote content.toList rest line
      rw [readText_ended ended, List.reverse_reverse] at reads
      rw [quoted]
      exact run_text line rfl (by decide) reads
    · rcases word.begins with ⟨first, others, begins, letter⟩
      have reads := readText_word word.characters rest line []
      rw [readText_ended ended, List.append_nil, List.reverse_reverse] at reads
      rw [bare, Value.withoutReturns, filter_returns word.characters]
      exact run_text line begins (beginsText_of_isAlphabetic letter) reads

end Scanner
end Document
end RecordGraph
