import RecordGraph.Proofs.Path.Delimiting
import RecordGraph.Proofs.SymbolTable.Refusal

/-!
# Paths as indices

A path that has the value of an index can stand for it: behind a `$` wherever it does, and by itself
if it begins with a letter. It stands there as long as the brackets close where its text ends, which
is so for the texts of the grammar.
-/

namespace RecordGraph

/-- The path names the value of the node, or that of no node where there is none. -/
def SymbolTable.Selects (table : SymbolTable) (arena : Arena) (path : String)
    (node : Option NodeId) : Prop :=
  Path.resolve table arena path = .ok ⟨node, some .value⟩ ∧ table.find arena path = node

/-- The integer that the value of the path stands for, where it is read inside another one. -/
def SymbolTable.integerAt? (table : SymbolTable) (arena : Arena) (path : String) : Option Int64 :=
  match (Path.inner table arena true).run (.ofText path) with
  | .ok target _ => Path.indexInteger? (target.value arena)
  | .error _ _ => none

namespace Path

variable {table : SymbolTable} {arena : Arena}

theorem selects_of_index {key : String} {node : NodeId} (isIdentifier : IsIdentifier key)
    (bound : table.lookup key = some node) {text : String} {index : List Char} {number : Nat}
    (same : text.toList = key.toList ++ '[' :: (index ++ [']']))
    (read : ∀ position, ∃ later,
      indexValue table arena (inner table arena) ⟨position, index ++ [']']⟩ =
        .ok (some number) ⟨later, [']']⟩) :
    table.Selects arena text (arena.child? node number) := by
  have named : identifier table arena (inner table arena) (.ofText text) =
      .ok key ⟨0 + byteSize key.toList, '[' :: (index ++ [']'])⟩ := by
    rw [Cursor.ofText, same]
    exact run_identifier isIdentifier (Text.stops_cons.mpr (by decide)) 0
  have primed : ∃ later, primary table arena (inner table arena) (.ofText text) =
      .ok (arena.child? node number) ⟨later, []⟩ := by
    rcases read (0 + byteSize key.toList + '['.utf8Size) with ⟨later, read⟩
    have closed : closedIndex table arena (inner table arena)
        ⟨0 + byteSize key.toList + '['.utf8Size, index ++ [']']⟩ =
          .ok (some number) ⟨later + 1, []⟩ :=
      closedIndex_eq_ok_iff.mpr ⟨_, read, closeBracket_eq later⟩
    have followed : follow table arena (inner table arena) (table.lookup key)
        ⟨0 + byteSize key.toList, '[' :: (index ++ [']'])⟩ =
          .ok (arena.child? node number) ⟨later + 1, []⟩ := by
      have advances (nested : Bool) : (inner table arena nested).Advances :=
        advances_below table arena _ nested
      rw [bound]
      exact ((follow_cons advances (some node) _ _).trans (bind_of_ok closed)).trans
        (indices_of_no_bracket (by simp))
    refine ⟨later + 1, (bind_of_ok named).trans ?_⟩
    rw [if_neg isIdentifier.ne_empty]
    exact followed
  rcases primed with ⟨later, primed⟩
  have direct : beginsIndirection text.toList = false := by
    rw [same]
    exact (@Derives.identifier table.robust key isIdentifier).direct_of_name
  have more : text.toList ≠ [] := by simp [same]
  have ran := path_of_parts more direct primed rfl (.inr rfl)
  constructor
  · have ran : (path table arena false).run (.ofText text) = _ := ran
    rw [resolve, ran]
  · have primed : (primary table arena (inner table arena)).run (.ofText text) = _ := primed
    rw [SymbolTable.find, SymbolTable.primaryAt, primed]

theorem indexValue_of_path {path : String} (derives : Derives table.robust .path path.toList)
    {integer : Int64} (yields : table.integerAt? arena path = some integer)
    (nonnegative : 0 ≤ integer) (origin place : Nat) : ∃ later,
      (inner table arena true >>= fun target => indexOfValue table (target.value arena) origin)
          ⟨place, path.toList ++ [']']⟩ = .ok (some integer.toInt.toNat) ⟨later, [']']⟩ := by
  unfold SymbolTable.integerAt? at yields
  split at yields
  · rename_i target finish ran
    have full : target.Full := by
      refine @Target.full_of_value target arena fun absent => ?_
      rw [absent] at yields
      cases yields
    rcases ((delimited_of_derives derives).1 table.limit.max).takes closes_nil ran full place
      (closes_bracket []) with ⟨later, ran⟩
    have ran : inner table arena true ⟨place, path.toList ++ [']']⟩ =
        .ok target ⟨later, [']']⟩ := ran
    exact ⟨later, (bind_of_ok ran).trans (indexOfValue_of_integer yields nonnegative origin _)⟩
  · cases yields

theorem begins_of_isAlpha {character : Char} (letter : character.isAlpha = true) :
    beginsIdentifier character = true ∧ Text.isDigit character = false := by
  have begins : beginsIdentifier character = true := by
    simp [beginsIdentifier, Char.isAlphanum, letter]
  refine ⟨begins, Bool.eq_false_iff.mpr fun digit => ?_⟩
  have low := (Text.isDigit_iff.mp digit).2
  simp only [Char.isAlpha, Char.isUpper, Char.isLower, Bool.or_eq_true, Bool.and_eq_true,
    decide_eq_true_eq, ge_iff_le, UInt32.le_iff_toNat_le] at letter
  have code : character.toNat = character.val.toNat := rfl
  have fronts : 'A'.val.toNat = 65 ∧ 'a'.val.toNat = 97 := ⟨rfl, rfl⟩
  omega

end Path

namespace SymbolTable

/-- A path of the grammar, in brackets behind an identifier and with a `$` in front, selects the
child at the integer that it has for its value inside another path. It does so without the `$` if it
begins with a letter: digits are an index themselves. -/
theorem index_selects_child {table : SymbolTable} {arena : Arena} {key path : String}
    {node : NodeId} (isIdentifier : Path.IsIdentifier key) (bound : table.lookup key = some node)
    (derives : Path.Derives table.robust .path path.toList) {integer : Int64}
    (yields : table.integerAt? arena path = some integer) (nonnegative : 0 ≤ integer) :
    table.Selects arena (key ++ "[$" ++ path ++ "]") (arena.child? node integer.toInt.toNat) ∧
      (path.toList.head?.any Char.isAlpha = true →
        table.Selects arena (key ++ "[" ++ path ++ "]")
          (arena.child? node integer.toInt.toNat)) := by
  have valued := Path.indexValue_of_path derives yields nonnegative
  constructor
  · have same : (key ++ "[$" ++ path ++ "]").toList =
        key.toList ++ '[' :: ('$' :: path.toList ++ [']']) := by simp
    refine Path.selects_of_index isIdentifier bound same fun position => ?_
    rcases valued position (position + '$'.utf8Size) with ⟨later, valued⟩
    exact ⟨later, (Path.indexValue_dollar position _).trans valued⟩
  · intro letter
    have same : (key ++ "[" ++ path ++ "]").toList =
        key.toList ++ '[' :: (path.toList ++ [']']) := by simp
    refine Path.selects_of_index isIdentifier bound same fun position => ?_
    rcases valued position position with ⟨later, valued⟩
    cases front : path.toList with
    | nil => simp [front] at letter
    | cons first rest =>
      simp only [front, List.head?_cons, Option.any_some] at letter
      rcases Path.begins_of_isAlpha letter with ⟨begins, noDigit⟩
      rw [front] at valued
      exact ⟨later, (Path.indexValue_letter begins noDigit position _).trans valued⟩

/-- A table with keys for a node with two children, for a number and for the text of its key. The
second child has the value 0, and so has the number. -/
def counted : SymbolTable × Arena :=
  let children := keyed.1.set keyed.2 "a[1]" (.int 0) true
  let number := children.table.set children.arena "1" (.int 0) true
  let text := number.table.set number.arena "x" (.text "1") true
  (text.table, text.arena)

theorem isIdentifier_a : Path.IsIdentifier "a" :=
  ⟨rfl, List.all_eq_true.mp rfl⟩

theorem derives_digit (robust : Bool) {digit : Char} (isDigit : Text.isDigit digit = true) :
    Path.Derives robust .index [digit] :=
  .literal nofun (List.forall_mem_singleton.mpr isDigit)

/-- The second child leads to the first one. -/
theorem index_selects_child_counted :
    counted.1.lookup "a" = some ⟨0, 0⟩ ∧ Path.Derives counted.1.robust .path "a[1]".toList ∧
      counted.1.integerAt? counted.2 "a[1]" = some 0 ∧ "a[1]".toList.head?.any Char.isAlpha = true ∧
      counted.1.Selects counted.2 "a[$a[1]]" (some ⟨2, 0⟩) ∧
      counted.1.Selects counted.2 "a[a[1]]" (some ⟨2, 0⟩) := by
  obtain ⟨bound, yields, child⟩ : counted.1.lookup "a" = some ⟨0, 0⟩ ∧
      counted.1.integerAt? counted.2 "a[1]" = some 0 ∧
      counted.2.child? ⟨0, 0⟩ (0 : Int64).toInt.toNat = some ⟨2, 0⟩ := by decide +kernel
  have derives : Path.Derives counted.1.robust .path "a[1]".toList :=
    .direct (.identifier isIdentifier_a) (.indexed (derives_digit _ rfl) .unindexed) .plain
  have selects := index_selects_child isIdentifier_a bound derives yields (by decide)
  rw [child] at selects
  exact ⟨bound, derives, yields, rfl, selects.1, selects.2 rfl⟩

/-- Three paths that yield 0 and do not stand for it as an index. Digits are an index themselves. A
`$` is taken for one in front of a path, so a parenthesis behind it begins none. And where paths are
mended, an index that goes on behind its digits is passed over up to the next bracket. -/
theorem index_misses_child :
    let mending := counted.1.inMode true
    Path.IsIdentifier "a" ∧ counted.1.lookup "a" = some ⟨0, 0⟩ ∧
      counted.2.child? ⟨0, 0⟩ 0 = some ⟨2, 0⟩ ∧
      (Path.Derives false .path "1".toList ∧ counted.1.integerAt? counted.2 "1" = some 0 ∧
        counted.1.find counted.2 "a[1]" = some ⟨1, 0⟩) ∧
      (Path.Derives false .path "$(x)".toList ∧
        counted.1.integerAt? counted.2 "$(x)" = some 0 ∧
        counted.1.find counted.2 "a[$(x)]" = none) ∧
      (Path.Derives false .path "a[1x[0]][2]".toList ∧
        mending.integerAt? counted.2 "a[1x[0]][2]" = some 0 ∧
        mending.find counted.2 "a[a[1x[0]][2]]" = none) := by
  have one : Path.IsIdentifier "1" := ⟨rfl, List.all_eq_true.mp rfl⟩
  have letter : Path.IsIdentifier "x" := ⟨rfl, List.all_eq_true.mp rfl⟩
  have mixed : Path.IsIdentifier "1x" := ⟨rfl, List.all_eq_true.mp rfl⟩
  have digits : Path.Derives false .path "1".toList := .direct (.identifier one) .unindexed .plain
  have computed : Path.Derives false .path "$(x)".toList :=
    .direct (.computed (.direct (.identifier letter) .unindexed .plain)) .unindexed .plain
  have inner : Path.Derives false .path "1x[0]".toList :=
    .direct (.identifier mixed) (.indexed (derives_digit _ rfl) .unindexed) .plain
  have outer : Path.Derives false .path "a[1x[0]][2]".toList :=
    .direct (.identifier isIdentifier_a)
      (.indexed (.bare inner nofun) (.indexed (derives_digit _ rfl) .unindexed)) .plain
  obtain ⟨⟨bound, child⟩, asDigits, asComputed, asOuter⟩ :
      (counted.1.lookup "a" = some ⟨0, 0⟩ ∧ counted.2.child? ⟨0, 0⟩ 0 = some ⟨2, 0⟩) ∧
        (counted.1.integerAt? counted.2 "1" = some 0 ∧
          counted.1.find counted.2 "a[1]" = some ⟨1, 0⟩) ∧
        (counted.1.integerAt? counted.2 "$(x)" = some 0 ∧
          counted.1.find counted.2 "a[$(x)]" = none) ∧
        ((counted.1.inMode true).integerAt? counted.2 "a[1x[0]][2]" = some 0 ∧
          (counted.1.inMode true).find counted.2 "a[a[1x[0]][2]]" = none) := by decide +kernel
  exact ⟨isIdentifier_a, bound, child, ⟨digits, asDigits⟩, ⟨computed, asComputed⟩, outer, asOuter⟩

end SymbolTable
end RecordGraph
