import RecordGraph.Path.Bytes
import RecordGraph.Proofs.Path.Interpolation

/-!
# Offsets and the characters at them

A place in a text is an offset between two characters. The byte there is the first one of the
character behind it. A character beyond ASCII has no byte of ASCII, so a test for characters of
ASCII may be made on bytes: a run of bytes that pass begins and ends between characters, and can be
cut out.
-/

namespace RecordGraph.Path

/-! ## The bytes of a character -/

namespace Bytes

def encode (character : Char) : List Char :=
  (String.utf8EncodeChar character).map Char.ofUInt8

def IsAscii (character : Char) : Prop :=
  character.toNat < 128

theorem utf8Size_of_ascii {character : Char} (ascii : IsAscii character) :
    character.utf8Size = 1 :=
  Char.utf8Size_eq_one_iff.mpr (UInt32.le_iff_toNat_le.mpr (Nat.le_of_lt_succ ascii))

theorem length_encode (character : Char) : (encode character).length = character.utf8Size := by
  rw [encode, List.length_map, String.length_utf8EncodeChar]

theorem encode_of_ascii {character : Char} (ascii : IsAscii character) :
    encode character = [character] := by
  have small : character.val.toNat < 256 := Nat.lt_trans ascii (by decide)
  rw [encode, String.utf8EncodeChar_eq_singleton (utf8Size_of_ascii ascii)]
  refine congrArg (fun code => [code]) (Char.ext (UInt32.toNat_inj.mp ?_))
  simp only [Char.ofUInt8, UInt8.toNat_toUInt32, UInt32.toNat_toUInt8]
  exact Nat.mod_eq_of_lt small

theorem not_isAscii_of_marked (raw : UInt8) {mark : UInt8} (high : 128 ≤ mark.toNat) :
    ¬ IsAscii (Char.ofUInt8 (raw ||| mark)) := by
  have value : (Char.ofUInt8 (raw ||| mark)).toNat = raw.toNat ||| mark.toNat := by
    rw [← UInt8.toNat_or]
    exact UInt8.toNat_toUInt32 _
  rw [IsAscii, value, Nat.not_lt]
  exact Nat.le_trans high Nat.right_le_or

theorem not_isAscii_of_mem_encode {character byte : Char} (wide : ¬ IsAscii character)
    (member : byte ∈ encode character) : ¬ IsAscii byte := by
  have marked (raw mark : UInt8) (high : 128 ≤ mark.toNat) := not_isAscii_of_marked raw high
  unfold encode at member
  rcases Char.utf8Size_eq character with one | two | three | four
  · have small := UInt32.le_iff_toNat_le.mp (Char.utf8Size_eq_one_iff.mp one)
    exact absurd (Nat.lt_succ_of_le small) wide
  · rw [String.utf8EncodeChar_eq_cons_cons two] at member
    simp only [List.map_cons, List.map_nil, List.mem_cons, List.not_mem_nil, or_false] at member
    rcases member with rfl | rfl <;> exact marked _ _ (by decide)
  · rw [String.utf8EncodeChar_eq_cons_cons_cons three] at member
    simp only [List.map_cons, List.map_nil, List.mem_cons, List.not_mem_nil, or_false] at member
    rcases member with rfl | rfl | rfl <;> exact marked _ _ (by decide)
  · rw [String.utf8EncodeChar_eq_cons_cons_cons_cons four] at member
    simp only [List.map_cons, List.map_nil, List.mem_cons, List.not_mem_nil, or_false] at member
    rcases member with rfl | rfl | rfl | rfl <;> exact marked _ _ (by decide)

instance (character : Char) : Decidable (IsAscii character) :=
  inferInstanceAs (Decidable (_ < _))

def Uniform (test : Char → Bool) : Prop :=
  ∃ answer, ∀ character, ¬ IsAscii character → test character = answer

theorem Uniform.eq_of_mem_encode {test : Char → Bool} (uniform : Uniform test)
    {character byte : Char} (member : byte ∈ encode character) : test byte = test character := by
  by_cases ascii : IsAscii character
  · rw [encode_of_ascii ascii, List.mem_singleton] at member
    rw [member]
  · rcases uniform with ⟨answer, same⟩
    rw [same _ ascii, same _ (not_isAscii_of_mem_encode ascii member)]

theorem isAscii_of_isAlphanum {character : Char} (alphanum : character.isAlphanum = true) :
    IsAscii character := by
  simp only [Char.isAlphanum, Char.isAlpha, Char.isUpper, Char.isLower, Char.isDigit,
    Bool.or_eq_true, Bool.and_eq_true, decide_eq_true_eq, ge_iff_le,
    UInt32.le_iff_toNat_le] at alphanum
  rcases alphanum with (⟨-, last⟩ | ⟨-, last⟩) | ⟨-, last⟩ <;>
    exact Nat.lt_of_le_of_lt last (by decide)

theorem uniform_of_isAscii {test : Char → Bool}
    (passes : ∀ {character}, test character = true → IsAscii character) : Uniform test :=
  ⟨false, fun _ wide => Bool.eq_false_iff.mpr fun passed => wide (passes passed)⟩

theorem uniform_beginsIdentifier : Uniform beginsIdentifier :=
  uniform_of_isAscii isAscii_of_isAlphanum

theorem uniform_continuesIdentifier : Uniform continuesIdentifier := by
  refine uniform_of_isAscii fun {character} passes => ?_
  simp only [continuesIdentifier, Bool.or_eq_true, beq_iff_eq] at passes
  rcases passes with (alphanum | rfl) | rfl
  · exact isAscii_of_isAlphanum alphanum
  · decide
  · decide

theorem uniform_isDigit : Uniform Text.isDigit := by
  refine uniform_of_isAscii fun {character} passes => ?_
  rw [Text.isDigit, Bool.and_eq_true, decide_eq_true_eq, decide_eq_true_eq] at passes
  exact Nat.lt_of_le_of_lt (UInt32.le_iff_toNat_le.mp passes.2) (by decide)

theorem uniform_eq {mark : Char} (ascii : IsAscii mark) : Uniform (· == mark) := by
  refine uniform_of_isAscii fun {character} passes => ?_
  rw [beq_iff_eq.mp passes]
  exact ascii

theorem uniform_ne {mark : Char} (ascii : IsAscii mark) : Uniform (· != mark) := by
  rcases uniform_eq ascii with ⟨answer, same⟩
  exact ⟨!answer, fun character wide => congrArg not (same character wide)⟩

end Bytes

/-! ## Places in a text -/

theorem length_le_byteSize (characters : List Char) : characters.length ≤ byteSize characters := by
  induction characters with
  | nil => exact Nat.le_refl _
  | cons character rest induction =>
    have positive := character.utf8Size_pos
    rw [byteSize_cons, List.length_cons]
    omega

theorem utf8Len_eq (characters : List Char) : String.utf8Len characters = byteSize characters := by
  induction characters with
  | nil => rfl
  | cons character characters induction =>
    rw [String.utf8Len_cons, induction, byteSize_cons, Nat.add_comm]

theorem utf8ByteSize_ofList (characters : List Char) :
    (String.ofList characters).utf8ByteSize = byteSize characters := by
  rw [String.utf8ByteSize_ofList, utf8Len_eq]

namespace Cursor

def In (text : String) (cursor : Cursor) : Prop :=
  ∃ front, text = String.ofList (front ++ cursor.rest) ∧ cursor.position = byteSize front

def atOffset (text : String) (offset : Nat) : Cursor :=
  ⟨offset, (String.Pos.Raw.extract text ⟨offset⟩ text.rawEndPos).toList⟩

namespace In

variable {text : String} {start finish : Cursor}

theorem reaches (inside : start.In text) (reaches : start.Reaches finish) : finish.In text := by
  rcases inside with ⟨front, rfl, position⟩
  rcases reaches with ⟨taken, split, later⟩
  refine ⟨front ++ taken, by rw [split, List.append_assoc], ?_⟩
  rw [later, position, byteSize_append]

theorem size_eq (inside : start.In text) :
    text.utf8ByteSize = start.position + byteSize start.rest := by
  rcases inside with ⟨front, rfl, position⟩
  rw [utf8ByteSize_ofList, byteSize_append, position]

theorem position_le (inside : start.In text) : start.position ≤ text.utf8ByteSize := by
  rw [inside.size_eq]
  exact Nat.le_add_right _ _

theorem size_le_iff (inside : start.In text) :
    text.utf8ByteSize ≤ start.position ↔ start.rest.isEmpty = true := by
  have length := length_le_byteSize start.rest
  rw [inside.size_eq, List.isEmpty_iff]
  constructor
  · intro beyond
    exact List.eq_nil_of_length_eq_zero (by omega)
  · intro empty
    rw [empty]
    exact Nat.le_refl _

theorem isValid (inside : start.In text) : String.Pos.Raw.IsValid text ⟨start.position⟩ := by
  rcases inside with ⟨front, rfl, position⟩
  refine String.Pos.Raw.isValid_iff_exists_append.mpr
    ⟨String.ofList front, String.ofList start.rest, String.ofList_append, ?_⟩
  rw [position, ← utf8ByteSize_ofList]
  rfl

theorem extract_eq {taken : List Char} (inside : start.In text)
    (split : start.rest = taken ++ finish.rest)
    (position : finish.position = start.position + byteSize taken) :
    String.Pos.Raw.extract text ⟨start.position⟩ ⟨finish.position⟩ = String.ofList taken := by
  rcases inside with ⟨front, rfl, before⟩
  rw [position, before, split, ← List.append_assoc, ← utf8Len_eq, ← utf8Len_eq]
  exact String.extract_of_valid front taken finish.rest

theorem eq_atOffset (inside : start.In text) : atOffset text start.position = start := by
  have left : start.rest = start.rest ++ [] := (List.append_nil _).symm
  have ends : text.utf8ByteSize = start.position + byteSize start.rest := inside.size_eq
  have part : String.Pos.Raw.extract text ⟨start.position⟩ ⟨text.utf8ByteSize⟩ =
      String.ofList start.rest := @extract_eq text start ⟨text.utf8ByteSize, []⟩ _ inside left ends
  unfold atOffset
  rw [String.rawEndPos, part, String.toList_ofList]

end In

theorem in_atOffset {text : String} {offset : Nat}
    (boundary : String.Pos.Raw.IsValid text ⟨offset⟩) : (atOffset text offset).In text := by
  rcases String.Pos.Raw.isValid_iff_exists_append.mp boundary with ⟨front, rest, rfl, ends⟩
  have inside : Cursor.In (front ++ rest) ⟨offset, rest.toList⟩ := by
    refine ⟨front.toList, ?_, ?_⟩
    · rw [String.ofList_append, String.ofList_toList, String.ofList_toList]
    · rw [← utf8ByteSize_ofList, String.ofList_toList]
      exact congrArg String.Pos.Raw.byteIdx ends
  rw [inside.eq_atOffset]
  exact inside

theorem in_ofText (text : String) : (ofText text).In text :=
  ⟨[], String.ofList_toList.symm, rfl⟩

end Cursor

namespace Bytes

variable {text : String} {start : Cursor}

theorem byteAt_add (inside : start.In text) (more : Nat) :
    byteAt text (start.position + more) = (start.rest.flatMap encode)[more]? := by
  rcases inside with ⟨front, rfl, position⟩
  have length : (front.flatMap String.utf8EncodeChar).length = byteSize front := by
    simp only [List.length_flatMap, String.length_utf8EncodeChar, byteSize]
  rw [byteAt, String.toByteArray_ofList, List.utf8Encode, List.data_toByteArray, position,
    List.getElem?_toArray, List.flatMap_append, ← length,
    List.getElem?_append_right (Nat.le_add_right _ _), Nat.add_sub_cancel_left, ← List.getElem?_map,
    List.map_flatMap]
  rfl

theorem byteAt_nil {position : Nat} (inside : Cursor.In text ⟨position, []⟩) :
    byteAt text position = none :=
  byteAt_add inside 0

theorem byteAt_cons {position : Nat} {character : Char} {rest : List Char}
    (inside : Cursor.In text ⟨position, character :: rest⟩) :
    ∃ byte ∈ encode character, byteAt text position = some byte := by
  have first : byteAt text position = _ := byteAt_add inside 0
  have positive : 0 < (encode character).length := by
    rw [length_encode]
    exact character.utf8Size_pos
  refine ⟨(encode character)[0], List.getElem_mem positive, ?_⟩
  rw [first, List.flatMap_cons, List.getElem?_append_left positive,
    List.getElem?_eq_getElem positive]

theorem byteAt_eq_iff {mark : Char} (ascii : IsAscii mark) (inside : start.In text) :
    byteAt text start.position = some mark ↔ start.rest.head? = some mark := by
  rcases start with ⟨position, _ | ⟨character, rest⟩⟩
  · rw [byteAt_nil inside]
    rfl
  · rcases byteAt_cons inside with ⟨byte, member, found⟩
    have same : (byte == mark) = (character == mark) :=
      (uniform_eq ascii).eq_of_mem_encode member
    rw [found, Option.some_inj, List.head?_cons, Option.some_inj, ← beq_iff_eq, same, beq_iff_eq]

/-! ### Passing over bytes -/

variable {test : Char → Bool}

theorem endOf_of_passes {offset : Nat} (passes : (byteAt text offset).any test = true) :
    endOf text test offset = endOf text test (offset + 1) := by
  have within : offset < text.utf8ByteSize := by
    refine Nat.lt_of_not_le fun outside => ?_
    have missing : text.toByteArray.data[offset]? = none := Array.getElem?_eq_none outside
    rw [byteAt, missing] at passes
    cases passes
  conv_lhs => unfold endOf
  rw [if_pos ⟨within, passes⟩]

theorem endOf_of_fails {offset : Nat} (fails : (byteAt text offset).any test = false) :
    endOf text test offset = offset := by
  unfold endOf
  rw [if_neg fun both => Bool.false_ne_true (fails.symm.trans both.2)]

theorem endOf_cons {position : Nat} {character : Char} {rest : List Char} (uniform : Uniform test)
    (inside : Cursor.In text ⟨position, character :: rest⟩) (passes : test character = true) :
    endOf text test position = endOf text test (position + character.utf8Size) := by
  have onward (passed : Nat) (some : passed ≤ character.utf8Size) :
      endOf text test position = endOf text test (position + passed) := by
    induction passed with
    | zero => rfl
    | succ passed induction =>
      have bound : passed < (encode character).length := by
        rw [length_encode]
        exact some
      have byte : byteAt text (position + passed) = (encode character)[passed] := by
        rw [byteAt_add inside, List.flatMap_cons, List.getElem?_append_left bound,
          List.getElem?_eq_getElem bound]
      rw [induction (Nat.le_of_succ_le some)]
      refine endOf_of_passes ?_
      rw [byte, Option.any_some, uniform.eq_of_mem_encode (List.getElem_mem bound), passes]
  exact onward _ (Nat.le_refl _)

theorem endOf_eq {position : Nat} {rest : List Char} (uniform : Uniform test)
    (inside : Cursor.In text ⟨position, rest⟩) :
    endOf text test position = (Cursor.takeWhile test position rest).2.position := by
  induction rest generalizing position with
  | nil =>
    refine endOf_of_fails ?_
    rw [byteAt_nil inside]
    rfl
  | cons character rest induction =>
    unfold Cursor.takeWhile
    cases passes : test character with
    | true =>
      rw [endOf_cons uniform inside passes]
      exact induction (inside.reaches (.cons position character rest))
    | false =>
      rcases byteAt_cons inside with ⟨byte, member, found⟩
      refine endOf_of_fails ?_
      rw [found, Option.any_some, uniform.eq_of_mem_encode member, passes]

theorem advance_at (offset : Nat) : advance offset = .ok () (offset + 1) := rfl

theorem passWhile_eq {test : Char → Bool} (uniform : Uniform test) (inside : start.In text) :
    passWhile text test start.position =
      .ok () (Cursor.takeWhile test start.position start.rest).2.position :=
  congrArg (EStateM.Result.ok ()) (endOf_eq uniform inside)

theorem slice_eq {finish : Cursor} {taken : List Char} {offset : Nat} (inside : start.In text)
    (split : start.rest = taken ++ finish.rest)
    (position : finish.position = start.position + byteSize taken) :
    slice text start.position finish.position offset = .ok (String.ofList taken) offset := by
  have later := inside.reaches ⟨taken, split, position⟩
  have order : start.position ≤ finish.position := by
    rw [position]
    exact Nat.le_add_right _ _
  unfold slice
  rw [if_pos ⟨order, inside.isValid, later.isValid⟩, inside.extract_eq split position]
  rfl

theorem remainder_eq (inside : start.In text) :
    remainder text start.position = .ok start.rest start.position := by
  have split : start.rest = start.rest ++ [] := (List.append_nil _).symm
  have cut : slice text start.position text.utf8ByteSize start.position =
      .ok (String.ofList start.rest) start.position :=
    @slice_eq text start ⟨text.utf8ByteSize, []⟩ start.rest _ inside split inside.size_eq
  refine (bind_of_ok (get_eq _)).trans ((bind_of_ok cut).trans ?_)
  rw [String.toList_ofList]
  rfl

theorem takeWhile_split (test : Char → Bool) (start : Cursor) :
    start.rest = (Cursor.takeWhile test start.position start.rest).1 ++
        (Cursor.takeWhile test start.position start.rest).2.rest ∧
      (Cursor.takeWhile test start.position start.rest).2.position =
        start.position + byteSize (Cursor.takeWhile test start.position start.rest).1 := by
  rcases Cursor.reaches_takeWhile test start.position start.rest with ⟨taken, split, position⟩
  simp only at split position
  have whole : start.rest = start.rest.takeWhile test ++ start.rest.dropWhile test :=
    List.takeWhile_append_dropWhile.symm
  rw [Cursor.takeWhile_rest] at split
  rw [position, Cursor.takeWhile_fst, Cursor.takeWhile_rest,
    List.append_cancel_right (split.symm.trans whole)]
  exact ⟨whole, rfl⟩

theorem cut_eq {test : Char → Bool} (uniform : Uniform test) (inside : start.In text) :
    cut text start.position test start.position =
      .ok (String.ofList (Cursor.takeWhile test start.position start.rest).1)
        (Cursor.takeWhile test start.position start.rest).2.position := by
  rcases takeWhile_split test start with ⟨split, position⟩
  exact (bind_of_ok (passWhile_eq uniform inside)).trans
    ((bind_of_ok (get_eq _)).trans (slice_eq inside split position))

theorem cut_of_passes {test : Char → Bool} {offset : Nat}
    (passes : (byteAt text offset).any test = true) :
    (do let start ← get; advance; cut text start test : Scanner String) offset =
      cut text offset test offset := by
  have passed : passWhile text test (offset + 1) = .ok () (endOf text test offset) :=
    congrArg (EStateM.Result.ok ()) (endOf_of_passes passes).symm
  refine (bind_of_ok (get_eq _)).trans ((bind_of_ok (advance_at _)).trans ?_)
  have again : passWhile text test offset = .ok () (endOf text test offset) := rfl
  unfold cut
  rw [bind_of_ok passed, bind_of_ok again]

theorem skipPast_eq_next (mark : Char) (position : Nat) (rest : List Char) :
    Cursor.skipPast mark position rest =
      (Cursor.takeWhile (· != mark) position rest).2.next := by
  induction rest generalizing position with
  | nil => rfl
  | cons character rest induction =>
    unfold Cursor.skipPast Cursor.takeWhile
    by_cases same : character = mark
    · simp [same, Cursor.next]
    · simp [same, induction]

end Bytes

end RecordGraph.Path
