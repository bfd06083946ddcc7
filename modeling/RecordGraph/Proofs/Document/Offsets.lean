import RecordGraph.Document.Bytes
import RecordGraph.Proofs.Document.Progress
import RecordGraph.Proofs.Path.Offsets

/-!
# Offsets in a document

A cursor stands at the offset that the text before it takes. The line of the cursor is that of the
offset: a line feed is a byte of its own, and no other character has such a byte. From one offset to
another that is not behind it the number of the line does not fall.
-/

namespace RecordGraph.Document.Bytes

open RecordGraph.Path (byteSize byteSize_append)
open RecordGraph.Path.Bytes (IsAscii Uniform byteAt byteAt_cons byteAt_nil encode endOf)

variable {text : String} {offset : Nat} {cursor later : Cursor}

def Stands (text : String) (offset : Nat) (cursor : Cursor) : Prop :=
  ∃ front, text = String.ofList (front ++ cursor.rest) ∧ offset = byteSize front ∧
    cursor.line = 1 + front.count '\n'

theorem stands_start (text : String) : Stands text 0 (.ofText text) :=
  ⟨[], String.ofList_toList.symm, rfl, rfl⟩

/-! ## Lines -/

theorem count_encode (character : Char) :
    (String.utf8EncodeChar character).count '\n'.toUInt8 = [character].count '\n' := by
  by_cases feed : character = '\n'
  · rw [feed]
    decide
  · have other : [character].count '\n' = 0 :=
      List.count_eq_zero.mpr fun member => feed (List.mem_singleton.mp member).symm
    rw [other, List.count_eq_zero]
    intro member
    have byte : '\n' ∈ encode character := List.mem_map.mpr ⟨_, member, by decide⟩
    by_cases ascii : IsAscii character
    · rw [Path.Bytes.encode_of_ascii ascii, List.mem_singleton] at byte
      exact feed byte.symm
    · exact Path.Bytes.not_isAscii_of_mem_encode ascii byte (by decide)

theorem count_flatMap_encode (characters : List Char) :
    (characters.flatMap String.utf8EncodeChar).count '\n'.toUInt8 = characters.count '\n' := by
  induction characters with
  | nil => rfl
  | cons character rest induction =>
    rw [List.flatMap_cons, List.count_append, count_encode, induction, ← List.count_append,
      List.singleton_append]

theorem Stands.line_eq (stands : Stands text offset cursor) : cursor.line = lineOf text offset := by
  rcases stands with ⟨front, rfl, rfl, line⟩
  have length : (front.flatMap String.utf8EncodeChar).length = byteSize front := by
    simp only [List.length_flatMap, String.length_utf8EncodeChar, byteSize]
  rw [line, lineOf, String.toByteArray_ofList, List.utf8Encode, List.data_toByteArray,
    List.flatMap_append, ← length]
  simp only [List.take_left, count_flatMap_encode]

theorem lineOf_mono (text : String) {first second : Nat} (order : first ≤ second) :
    lineOf text first ≤ lineOf text second :=
  Nat.add_le_add_left ((List.take_prefix_take_left order).sublist.count_le _) 1

/-! ## Places -/

namespace Stands

theorem inside (stands : Stands text offset cursor) :
    Path.Cursor.In text ⟨offset, cursor.rest⟩ := by
  rcases stands with ⟨front, whole, position, -⟩
  exact ⟨front, whole, position⟩

theorem isValid (stands : Stands text offset cursor) : String.Pos.Raw.IsValid text ⟨offset⟩ :=
  stands.inside.isValid

theorem size_eq (stands : Stands text offset cursor) :
    text.utf8ByteSize = offset + byteSize cursor.rest :=
  stands.inside.size_eq

theorem offset_le (stands : Stands text offset cursor) : offset ≤ text.utf8ByteSize :=
  stands.inside.position_le

theorem size_le_iff (stands : Stands text offset cursor) :
    text.utf8ByteSize ≤ offset ↔ cursor.isAtEnd = true :=
  stands.inside.size_le_iff

theorem past (stands : Stands text offset cursor) {taken rest : List Char}
    (split : cursor.rest = taken ++ rest) :
    Stands text (offset + byteSize taken) ⟨cursor.line + taken.count '\n', rest⟩ := by
  rcases stands with ⟨front, whole, position, line⟩
  refine ⟨front ++ taken, ?_, ?_, ?_⟩
  · rw [whole, split, List.append_assoc]
  · rw [position, byteSize_append]
  · rw [line, List.count_append, Nat.add_assoc]

/-- What a scanner leads to has an offset as well, which is not before the one that it began at. -/
theorem reaches (stands : Stands text offset cursor) (reaches : cursor.Reaches later) :
    ∃ finish, Stands text finish later ∧ offset ≤ finish := by
  rcases reaches with ⟨taken, split, line⟩
  refine ⟨_, ?_, Nat.le_add_right offset (byteSize taken)⟩
  have there := stands.past split
  rwa [← line] at there

theorem le_of_reaches {finish : Nat} (stands : Stands text offset cursor)
    (reaches : cursor.Reaches later) (there : Stands text finish later) : offset ≤ finish := by
  rcases stands.reaches reaches with ⟨same, standing, order⟩
  have size := standing.size_eq
  have ends := there.size_eq
  omega

theorem lt_of_takes {finish : Nat} (stands : Stands text offset cursor)
    (reaches : cursor.Reaches later) (takes : later.rest.length < cursor.rest.length)
    (there : Stands text finish later) : offset < finish := by
  rcases reaches with ⟨taken, split, -⟩
  have size := stands.size_eq
  have ends := there.size_eq
  have bytes := Path.length_le_byteSize taken
  rw [split, byteSize_append] at size
  rw [split, List.length_append] at takes
  omega

theorem exists_of_isValid (boundary : String.Pos.Raw.IsValid text ⟨offset⟩) :
    ∃ cursor, Stands text offset cursor := by
  rcases Path.Cursor.in_atOffset boundary with ⟨front, whole, position⟩
  exact ⟨⟨1 + front.count '\n', _⟩, front, whole, position, rfl⟩

/-! ## Bytes -/

variable {test : Char → Bool}

theorem endOf_eq (stands : Stands text offset cursor) (uniform : Uniform test) :
    endOf text test offset = offset + byteSize (cursor.ahead test) := by
  have split := Path.Bytes.takeWhile_split test ⟨offset, cursor.rest⟩
  rw [Path.Cursor.takeWhile_fst] at split
  rw [Path.Bytes.endOf_eq uniform stands.inside, split.2]
  rfl

theorem skip (stands : Stands text offset cursor) (test : Char → Bool) :
    Stands text (offset + byteSize (cursor.ahead test)) (cursor.skip test) := by
  refine stands.past ?_
  rw [Cursor.ahead, Cursor.drop_length_takeWhile, List.takeWhile_append_dropWhile]

theorem any_byteAt (stands : Stands text offset cursor) (uniform : Uniform test) :
    (byteAt text offset).any test = cursor.peek.any test := by
  rcases cursor with ⟨line, _ | ⟨character, rest⟩⟩
  · rw [byteAt_nil stands.inside]
    rfl
  · rcases byteAt_cons stands.inside with ⟨byte, member, found⟩
    rw [found, Option.any_some, uniform.eq_of_mem_encode member]
    rfl

theorem byteAt_eq_iff {sign : Char} (stands : Stands text offset cursor) (ascii : IsAscii sign) :
    byteAt text offset = some sign ↔ cursor.isAt sign = true := by
  rw [Path.Bytes.byteAt_eq_iff ascii stands.inside, Cursor.isAt, beq_iff_eq]
  rfl

theorem byteAt_ne {sign : Char} (stands : Stands text offset cursor) (ascii : IsAscii sign)
    (elsewhere : cursor.isAt sign = false) : byteAt text offset ≠ some sign := fun byte =>
  Bool.false_ne_true (elsewhere.symm.trans ((stands.byteAt_eq_iff ascii).mp byte))

end Stands

end RecordGraph.Document.Bytes
