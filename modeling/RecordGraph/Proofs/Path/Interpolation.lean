import RecordGraph.Proofs.Path.Leniency

/-!
# The pieces of a running text

A running text is read from left to right as characters, escaped characters and paths behind a `$`.
A path ends where its reader stops, whether it succeeds or fails, so the pieces as they are written
give the text back. What is filled in for a path without a value is the path as it is written:
without backslashes and values nothing changes.
-/

namespace RecordGraph

namespace Path

inductive Piece where
  | character (letter : Char)
  | escaped (letter : Char)
  | backslash
  /-- A `$` with the text of a path behind it, and the value that the path has. -/
  | path (behind : List Char) (value : Value)
deriving DecidableEq, Repr

namespace Piece

def written : Piece → List Char
  | character letter => [letter]
  | escaped letter => ['\\', letter]
  | backslash => ['\\']
  | path behind _ => '$' :: behind

/-- What stands for a piece: the character, nothing for a lone backslash, and for a path the text of
its value, or else the path as it is written. -/
def filled : Piece → List Char
  | character letter => [letter]
  | escaped letter => [letter]
  | backslash => []
  | path behind value => if value.isAbsent then '$' :: behind else value.toText.toList

def Valued : Piece → Prop
  | path _ value => value ≠ .absent
  | _ => False

theorem filled_of_not_valued {piece : Piece} (unescaped : '\\' ∉ piece.written)
    (valueless : ¬ piece.Valued) : piece.filled = piece.written := by
  cases piece with
  | character letter => rfl
  | escaped letter => exact absurd List.mem_cons_self unescaped
  | backslash => exact absurd List.mem_cons_self unescaped
  | path behind value =>
    have absent : value = .absent := Classical.not_not.mp valueless
    rw [absent]
    rfl

end Piece

/-- What is left of a running text splits into these pieces. The path behind a `$` is read without a
check for text after it; where it fails it has no value and ends where the failure was met. -/
inductive Splits (table : SymbolTable) (arena : Arena) : Cursor → List Piece → Prop where
  | nil {position : Nat} : Splits table arena ⟨position, []⟩ []
  | character {position : Nat} {letter : Char} {rest : List Char} {pieces : List Piece} :
      letter ≠ '\\' → letter ≠ '$' →
      Splits table arena ⟨position + letter.utf8Size, rest⟩ pieces →
      Splits table arena ⟨position, letter :: rest⟩ (.character letter :: pieces)
  | escaped {position : Nat} {letter : Char} {rest : List Char} {pieces : List Piece} :
      Splits table arena ⟨position + 1 + letter.utf8Size, rest⟩ pieces →
      Splits table arena ⟨position, '\\' :: letter :: rest⟩ (.escaped letter :: pieces)
  | backslash {position : Nat} : Splits table arena ⟨position, ['\\']⟩ [.backslash]
  | path {position : Nat} {behind rest : List Char} {value : Value} {pieces : List Piece} :
      valueAt table arena ⟨position + 1, behind ++ rest⟩ =
        (value, ⟨position + 1 + byteSize behind, rest⟩) →
      Splits table arena ⟨position + 1 + byteSize behind, rest⟩ pieces →
      Splits table arena ⟨position, '$' :: (behind ++ rest)⟩ (.path behind value :: pieces)

variable {table : SymbolTable} {arena : Arena} {cursor : Cursor} {pieces : List Piece}

theorem advances_path (table : SymbolTable) (arena : Arena) (nested : Bool) :
    (path table arena nested).Advances :=
  advances_pathOver table arena (advances_below table arena _) nested

theorem reaches_valueAt (table : SymbolTable) (arena : Arena) (cursor : Cursor) :
    cursor.Reaches (valueAt table arena cursor).2 := by
  have reaches := advances_path table arena true cursor
  unfold valueAt
  cases ran : path table arena true cursor with
  | ok target finish | error failure finish =>
    rw [ran] at reaches
    have ran : (path table arena true).run cursor = _ := ran
    rw [ran]
    exact reaches

theorem exists_splits (table : SymbolTable) (arena : Arena) (cursor : Cursor) :
    ∃ pieces, Splits table arena cursor pieces := by
  induction length : cursor.rest.length using Nat.strong_induction_on generalizing cursor with
  | h length induction =>
    subst length
    rcases cursor with ⟨position, _ | ⟨letter, rest⟩⟩
    · exact ⟨_, .nil⟩
    by_cases backslash : letter = '\\'
    · subst backslash
      cases rest with
      | nil => exact ⟨_, .backslash⟩
      | cons letter rest =>
        have shorter : rest.length < ('\\' :: letter :: rest).length := by simp
        rcases induction _ shorter ⟨position + 1 + letter.utf8Size, rest⟩ rfl with ⟨_, splits⟩
        exact ⟨_, .escaped splits⟩
    by_cases dollar : letter = '$'
    · subst dollar
      rcases reaches_valueAt table arena ⟨position + 1, rest⟩ with ⟨behind, split, ended⟩
      rcases ran : valueAt table arena ⟨position + 1, rest⟩ with ⟨value, finish, left⟩
      simp only [ran] at split ended
      subst split ended
      have shorter : left.length < ('$' :: (behind ++ left)).length := by simp
      rcases induction _ shorter ⟨position + 1 + byteSize behind, left⟩ rfl with ⟨_, splits⟩
      exact ⟨_, .path ran splits⟩
    · rcases induction _ (Nat.lt_succ_self _) ⟨position + letter.utf8Size, rest⟩ rfl with
        ⟨_, splits⟩
      exact ⟨_, .character backslash dollar splits⟩

namespace Splits

theorem written (splits : Splits table arena cursor pieces) :
    pieces.flatMap Piece.written = cursor.rest := by
  induction splits with
  | nil => rfl
  | backslash => rfl
  | character _ _ _ induction => rw [List.flatMap_cons, induction]; rfl
  | escaped _ induction => rw [List.flatMap_cons, induction]; rfl
  | path _ _ induction => rw [List.flatMap_cons, induction]; rfl

theorem unique {others : List Piece} (splits : Splits table arena cursor pieces)
    (again : Splits table arena cursor others) : pieces = others := by
  induction splits generalizing others with
  | nil => cases again; rfl
  | backslash =>
    cases again with
    | character noBackslash => exact absurd rfl noBackslash
    | backslash => rfl
  | character noBackslash noDollar _ induction =>
    cases again with
    | character _ _ later => rw [induction later]
    | escaped => exact absurd rfl noBackslash
    | backslash => exact absurd rfl noBackslash
    | path => exact absurd rfl noDollar
  | escaped _ induction =>
    cases again with
    | character noBackslash => exact absurd rfl noBackslash
    | escaped later => rw [induction later]
  | @path position behind rest value _ read _ induction =>
    generalize same : behind ++ rest = left at again read
    cases again with
    | character _ noDollar => exact absurd rfl noDollar
    | @path _ other left _ _ readAgain later =>
      have both := read.symm.trans readAgain
      simp only [Prod.mk.injEq, Cursor.mk.injEq] at both
      obtain ⟨rfl, -, rfl⟩ := both
      cases List.append_cancel_right same
      rw [induction later]

end Splits

/-! ## Filling in -/

theorem takeBytes_byteSize (characters rest : List Char) :
    Cursor.takeBytes (byteSize characters) (characters ++ rest) = characters := by
  induction characters with
  | nil => cases rest <;> rfl
  | cons letter characters induction =>
    have positive := letter.utf8Size_pos
    rw [byteSize_cons, List.cons_append, Cursor.takeBytes, Nat.add_sub_cancel_left, induction]
    omega

theorem textUpTo_path (position : Nat) (behind rest : List Char) :
    Cursor.textUpTo ⟨position, '$' :: (behind ++ rest)⟩ ⟨position + 1 + byteSize behind, rest⟩ =
      '$' :: behind := by
  have bytes : position + 1 + byteSize behind - position = byteSize ('$' :: behind) := by
    rw [byteSize_cons, show Char.utf8Size '$' = 1 from rfl]
    omega
  simp only [Cursor.textUpTo, bytes]
  exact takeBytes_byteSize ('$' :: behind) rest

theorem Splits.filled (splits : Splits table arena cursor pieces) {rounds : Nat}
    (enough : cursor.rest.length ≤ rounds) :
    (fragments table arena rounds cursor).flatMap Fragment.filled =
      pieces.flatMap Piece.filled := by
  induction splits generalizing rounds with
  | nil => cases rounds <;> rfl
  | backslash =>
    cases rounds <;> rfl
  | @character position letter rest _ noBackslash noDollar _ induction =>
    cases rounds with
    | zero => cases enough
    | succ rounds =>
      have fragment : fragments table arena (rounds + 1) ⟨position, letter :: rest⟩ =
          .plain [letter] :: fragments table arena rounds ⟨position + letter.utf8Size, rest⟩ := by
        conv_lhs => unfold fragments
        split <;> rename_i same <;> cases same
        · exact absurd rfl noBackslash
        · exact absurd rfl noBackslash
        · exact absurd rfl noDollar
        · rfl
      rw [fragment, List.flatMap_cons, List.flatMap_cons,
        induction (Nat.le_of_succ_le_succ enough)]
      rfl
  | @escaped position letter rest _ _ induction =>
    cases rounds with
    | zero => cases enough
    | succ rounds =>
      have shorter : rest.length ≤ rounds := Nat.le_of_succ_le (Nat.le_of_succ_le_succ enough)
      have fragment : fragments table arena (rounds + 1) ⟨position, '\\' :: letter :: rest⟩ =
          .plain [letter] ::
            fragments table arena rounds ⟨position + 1 + letter.utf8Size, rest⟩ := rfl
      rw [fragment, List.flatMap_cons, List.flatMap_cons, induction shorter]
      rfl
  | @path position behind rest value _ read _ induction =>
    cases rounds with
    | zero => cases enough
    | succ rounds =>
      have shorter : rest.length ≤ rounds := by
        simp only [List.length_cons, List.length_append] at enough
        omega
      have fragment : fragments table arena (rounds + 1) ⟨position, '$' :: (behind ++ rest)⟩ =
          .path ('$' :: behind) value ::
            fragments table arena rounds ⟨position + 1 + byteSize behind, rest⟩ := by
        have next : Cursor.next ⟨position, '$' :: (behind ++ rest)⟩ =
          ⟨position + 1, behind ++ rest⟩ := rfl
        simp only [fragments, next, read, textUpTo_path]
      rw [fragment, List.flatMap_cons, List.flatMap_cons, induction shorter]
      rfl

theorem Splits.fillIn_eq {text : String} (splits : Splits table arena (.ofText text) pieces) :
    fillIn table arena text = String.ofList (pieces.flatMap Piece.filled) := by
  have rounds : (Cursor.ofText text).rest.length ≤ text.toList.length := Nat.le_refl _
  rw [fillIn, splits.filled rounds]

/-- Without a backslash and without a path that has a value, the pieces are filled in as they are
written. -/
theorem Splits.filled_eq (splits : Splits table arena cursor pieces)
    (unescaped : '\\' ∉ cursor.rest) (valueless : ∀ piece ∈ pieces, ¬ piece.Valued) :
    pieces.flatMap Piece.filled = cursor.rest := by
  rw [← splits.written] at unescaped ⊢
  refine List.flatMap_congr fun piece member => ?_
  exact Piece.filled_of_not_valued
    (fun escape => unescaped (List.mem_flatMap_of_mem member escape)) (valueless piece member)

/-! ## Tables without bindings -/

section Unbound

variable (unbound : ∀ key, table.lookup key = none)

include unbound

theorem primary_of_no_bindings {deeper : Bool → Reader Target} {start finish : Cursor}
    {reached : Option NodeId} (ran : primary table arena deeper start = .ok reached finish) :
    reached = none := by
  unfold primary at ran
  rcases bind_eq_ok_iff.mp ran with ⟨key, place, -, ran⟩
  split at ran
  · cases ran
    rfl
  · rcases bind_eq_ok_iff.mp ran with ⟨_, _, -, ran⟩
    rw [unbound] at ran
    exact indices_none ran

theorem pathOver_of_no_bindings {deeper : Bool → Reader Target}
    (nowhere : ∀ {nested start target finish}, deeper nested start = .ok target finish →
      target.node = none) {nested : Bool} {start finish : Cursor} {target : Target}
    (ran : pathOver table arena deeper nested start = .ok target finish) : target.node = none := by
  unfold pathOver at ran
  rcases bind_eq_ok_iff.mp ran with ⟨_, _, ⟨⟩, ran⟩
  split at ran
  · cases ran
    rfl
  split at ran
  · rcases bind_eq_ok_iff.mp ran with ⟨_, _, -, ran⟩
    rcases bind_eq_ok_iff.mp ran with ⟨inner, place, -, ran⟩
    unfold Reader.readText at ran
    cases again : (deeper nested).run (.ofText (inner.value arena).toText) with
    | error failure later =>
      rw [again] at ran
      cases ran
    | ok found later =>
      rw [again] at ran
      cases ran
      exact nowhere again
  · rcases bind_eq_ok_iff.mp ran with ⟨node, place, primed, ran⟩
    rcases bind_eq_ok_iff.mp ran with ⟨attr, later, -, ran⟩
    rcases bind_eq_ok_iff.mp ran with ⟨_, _, ⟨⟩, ran⟩
    cases primary_of_no_bindings unbound primed
    split at ran
    · cases ran
    · cases ran
      rfl

theorem below_of_no_bindings {levels : Nat} {nested : Bool} {start finish : Cursor}
    {target : Target} (ran : below table arena levels nested start = .ok target finish) :
    target.node = none := by
  induction levels generalizing nested start finish target with
  | zero => cases ran
  | succ levels induction => exact pathOver_of_no_bindings unbound induction ran

theorem valueAt_of_no_bindings (cursor : Cursor) : (valueAt table arena cursor).1 = .absent := by
  unfold valueAt
  cases ran : (path table arena true).run cursor with
  | error failure finish => rfl
  | ok target finish =>
    have nowhere := pathOver_of_no_bindings unbound (below_of_no_bindings unbound) ran
    simp [Target.value, Target.value?, nowhere]

theorem Splits.not_valued (splits : Splits table arena cursor pieces) :
    ∀ piece ∈ pieces, ¬ piece.Valued := by
  induction splits with
  | nil => exact List.forall_mem_nil _
  | backslash => exact List.forall_mem_singleton.mpr id
  | character _ _ _ induction => exact List.forall_mem_cons.mpr ⟨id, induction⟩
  | escaped _ induction => exact List.forall_mem_cons.mpr ⟨id, induction⟩
  | path read _ induction =>
    have absent := (congrArg Prod.fst read).symm.trans (valueAt_of_no_bindings unbound _)
    exact List.forall_mem_cons.mpr ⟨fun valued => valued absent, induction⟩

end Unbound

end Path

namespace SymbolTable

/-- A running text splits, in just one way, into characters, escaped characters and paths behind a
`$`. They make up the text, and what is filled in is the characters, the escaped characters, and
for each path the text of its value, or else the path as it is written. So a text without
backslashes stays as it is if none of its paths has a value, as in a table without bindings. -/
theorem fillIn_pieces (table : SymbolTable) (arena : Arena) (text : String) :
    ∃ pieces, Path.Splits table arena (.ofText text) pieces ∧
      (∀ others, Path.Splits table arena (.ofText text) others → others = pieces) ∧
      pieces.flatMap Path.Piece.written = text.toList ∧
      table.fillIn arena text = String.ofList (pieces.flatMap Path.Piece.filled) ∧
      ('\\' ∉ text.toList → (∀ piece ∈ pieces, ¬ piece.Valued) →
        table.fillIn arena text = text) ∧
      ('\\' ∉ text.toList → table.bindings = ∅ → table.fillIn arena text = text) := by
  rcases Path.exists_splits table arena (.ofText text) with ⟨pieces, splits⟩
  have filled : table.fillIn arena text = String.ofList (pieces.flatMap Path.Piece.filled) :=
    splits.fillIn_eq
  have verbatim (unescaped : '\\' ∉ text.toList) (valueless : ∀ piece ∈ pieces, ¬ piece.Valued) :
      table.fillIn arena text = text := by
    rw [filled, splits.filled_eq unescaped valueless]
    exact String.ofList_toList
  refine ⟨pieces, splits, fun others again => again.unique splits, splits.written, filled,
    verbatim, fun unescaped empty => verbatim unescaped (splits.not_valued fun key => ?_)⟩
  rw [lookup, empty, Std.ExtTreeMap.getElem?_empty]

-- the path behind the third `$` is malformed
example : signpost.1.fillIn signpost.2 "\\$x $x $(x[ " = "$x y $(x[ " := by decide +kernel

end SymbolTable
end RecordGraph
