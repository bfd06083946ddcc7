import Mathlib.Data.List.Forall2
import RecordGraph.Text.LetterCase

/-!
# Texts compared as names and as bytes

Two names are the same up to case if they differ in nothing but the case of letters from `A` to `Z`;
this is so exactly if both become the same text in small letters. The order of texts is the order of
their bytes in UTF-8: of two characters the greater one has the greater byte where their bytes
differ first.
-/

namespace RecordGraph.Text

/-! ## Names up to case -/

def IsCapitalOf (capital small : Char) : Prop :=
  capital.isUpper = true ∧ small.toNat = capital.toNat + 32

def SameLetter (left right : Char) : Prop :=
  left = right ∨ IsCapitalOf left right ∨ IsCapitalOf right left

/-- The names differ in nothing but the case of letters from `A` to `Z`. -/
def SameName (left right : String) : Prop :=
  List.Forall₂ SameLetter left.toList right.toList

theorem isUpper_iff {character : Char} :
    character.isUpper = true ↔ 65 ≤ character.toNat ∧ character.toNat ≤ 90 :=
  decide_eq_true_iff

theorem toNat_toLower (character : Char) :
    character.toLower.toNat =
      if character.isUpper then character.toNat + 32 else character.toNat := by
  by_cases upper : character.isUpper = true
  · have bounds := isUpper_iff.mp upper
    have lowered : character.toLower.val = character.val + 32 :=
      congrArg Char.val (dif_pos (of_decide_eq_true upper))
    have code := congrArg UInt32.toNat lowered
    rw [UInt32.toNat_add] at code
    change character.toLower.toNat = (character.toNat + 32) % 2 ^ 32 at code
    rw [if_pos upper]
    omega
  · have kept : character.toLower = character := dif_neg fun inside => upper (decide_eq_true inside)
    rw [if_neg upper, kept]

theorem sameLetter_iff {left right : Char} :
    SameLetter left right ↔ left.toLower = right.toLower := by
  rw [← Char.toNat_inj, toNat_toLower, toNat_toLower, SameLetter, ← Char.toNat_inj, IsCapitalOf,
    IsCapitalOf]
  simp only [isUpper_iff]
  split <;> split <;> omega

theorem sameName_iff {left right : String} :
    SameName left right ↔ asciiLowerCase left = asciiLowerCase right := by
  rw [asciiLowerCase, asciiLowerCase, String.ofList_inj, ← List.forall₂_eq_eq_eq,
    List.forall₂_map_left_iff, List.forall₂_map_right_iff]
  simp only [← sameLetter_iff]
  exact Iff.rfl

/-! ## Bytes -/

def bytes (text : String) : List UInt8 :=
  text.toByteArray.data.toList

theorem bytes_eq (text : String) : bytes text = text.toList.flatMap String.utf8EncodeChar := by
  conv_lhs => rw [← String.ofList_toList (s := text)]
  rw [bytes, String.toByteArray_ofList, List.utf8Encode, List.data_toByteArray]

def encodeCode (code : Nat) : List UInt8 :=
  if code ≤ 127 then [.ofNat code]
  else if code ≤ 2047 then [.ofNat (code / 64 % 32 + 192), .ofNat (code % 64 + 128)]
  else if code ≤ 65535 then
    [.ofNat (code / 4096 % 16 + 224), .ofNat (code / 64 % 64 + 128), .ofNat (code % 64 + 128)]
  else
    [.ofNat (code / 262144 % 8 + 240), .ofNat (code / 4096 % 64 + 128),
      .ofNat (code / 64 % 64 + 128), .ofNat (code % 64 + 128)]

theorem toNat_lt (character : Char) : character.toNat < 0x110000 := by
  have valid := character.valid
  simp only [UInt32.isValidChar, Nat.isValidChar] at valid
  change character.val.toNat < _
  omega

theorem bits_eq {code : Nat} (bound : code < 0x110000) :
    code = 262144 * (code / 262144 % 8) + 4096 * (code / 4096 % 64) + 64 * (code / 64 % 64) +
      code % 64 := by
  omega

/-- Where the bytes of two characters differ first, the greater character has the greater byte. The
first bytes tell the lengths apart; with equal lengths the bytes are compared in turn. -/
theorem encodeCode_append_lt {small large : Nat} (less : small < large) (bound : large < 0x110000)
    (behind other : List UInt8) : encodeCode small ++ behind < encodeCode large ++ other := by
  have smallBits := bits_eq (Nat.lt_trans less bound)
  have largeBits := bits_eq bound
  unfold encodeCode
  split_ifs <;>
    simp (disch := omega) only [List.cons_append, List.nil_append, List.cons_lt_cons_iff,
      UInt8.lt_iff_toNat_lt, ← UInt8.toNat_inj, UInt8.toNat_ofNat', Nat.mod_eq_of_lt] <;>
    omega

theorem flatMap_encode_lt {left right : List Char} (less : left < right) :
    left.flatMap String.utf8EncodeChar < right.flatMap String.utf8EncodeChar := by
  induction left generalizing right with
  | nil =>
    cases right with
    | nil => exact absurd less (List.not_lt_nil [])
    | cons character rest =>
      cases encoded : String.utf8EncodeChar character with
      | nil => exact absurd encoded String.utf8EncodeChar_ne_nil
      | cons byte bytes =>
        rw [List.flatMap_nil, List.flatMap_cons, encoded]
        exact List.nil_lt_cons _ _
  | cons character rest induction =>
    cases right with
    | nil => exact absurd less (List.not_lt_nil _)
    | cons other behind =>
      rw [List.flatMap_cons, List.flatMap_cons]
      cases List.cons_lt_cons_iff.mp less with
      | inl lessCharacter =>
        exact encodeCode_append_lt lessCharacter (toNat_lt other) _ _
      | inr same =>
        rw [same.1]
        exact List.append_left_lt (induction same.2)

theorem bytes_lt_iff {left right : String} : bytes left < bytes right ↔ left < right := by
  rw [bytes_eq, bytes_eq, String.lt_iff]
  constructor
  · intro less
    apply Classical.byContradiction
    intro notLess
    cases (Std.lt_trichotomy left.toList right.toList).resolve_left notLess with
    | inl same =>
      rw [same] at less
      exact List.lt_irrefl _ less
    | inr later => exact List.lt_asymm less (flatMap_encode_lt later)
  · exact flatMap_encode_lt

end RecordGraph.Text
