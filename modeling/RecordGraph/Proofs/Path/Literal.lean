import RecordGraph.Proofs.Path.Plain

/-!
# Paths without anything computed

Where a text has no `$`, and a digit stands behind each `[`, nothing in it is looked up to read it.
A strict table that reads such a text as a destination has read a plain path, or a plain path with a
point behind it and no name, or no primary at all.
-/

namespace RecordGraph

namespace Path

/-- Nothing in the text is computed: no `$` stands in it, and a digit stands behind each `[`. -/
structure Literal (text : List Char) : Prop where
  no_dollar : '$' ∉ text
  digit : ∀ {front rest}, text = front ++ '[' :: rest → rest.head?.any Text.isDigit = true

def Unnamed (text : List Char) : Prop :=
  ∃ front rest, text = front ++ '.' :: rest ∧ rest.head?.any beginsIdentifier = false

theorem Literal.behind {front rest : List Char} (literal : Literal (front ++ rest)) :
    Literal rest where
  no_dollar member := literal.no_dollar (List.mem_append_right front member)
  digit same := literal.digit (by rw [same, ← List.append_assoc])

/-- A character with what is behind it is what a text ends with, from some place on. -/
theorem exists_eq_append_cons_iff {text rest : List Char} {first : Char} :
    (∃ front, text = front ++ first :: rest) ↔ first :: rest ∈ text.tails := by
  simp only [List.mem_tails, List.IsSuffix, eq_comm]

theorem literal_iff_tails {text : List Char} :
    Literal text ↔ '$' ∉ text ∧ ∀ tail ∈ text.tails, tail.head? = some '[' →
      tail.tail.head?.any Text.isDigit = true := by
  constructor
  · rintro ⟨no_dollar, digit⟩
    refine ⟨no_dollar, fun tail member opens => ?_⟩
    rcases List.head?_eq_some_iff.mp opens with ⟨rest, rfl⟩
    rcases exists_eq_append_cons_iff.mpr member with ⟨front, same⟩
    exact digit same
  · rintro ⟨no_dollar, digit⟩
    exact ⟨no_dollar, fun same => digit _ (exists_eq_append_cons_iff.mp ⟨_, same⟩) rfl⟩

theorem unnamed_iff_tails {text : List Char} :
    Unnamed text ↔ ∃ tail ∈ text.tails, tail.head? = some '.' ∧
      tail.tail.head?.any beginsIdentifier = false := by
  constructor
  · rintro ⟨front, rest, same, nameless⟩
    exact ⟨_, exists_eq_append_cons_iff.mp ⟨front, same⟩, rfl, nameless⟩
  · rintro ⟨tail, member, point, nameless⟩
    rcases List.head?_eq_some_iff.mp point with ⟨rest, rfl⟩
    rcases exists_eq_append_cons_iff.mpr member with ⟨front, same⟩
    exact ⟨front, rest, same, nameless⟩

instance (text : List Char) : Decidable (Literal text) :=
  decidable_of_iff _ literal_iff_tails.symm

instance (text : List Char) : Decidable (Unnamed text) :=
  decidable_of_iff _ unnamed_iff_tails.symm

example : Literal "a[1].".toList ∧ ¬ Literal "a[b]".toList := by decide +kernel
example : Unnamed "a[1].".toList ∧ ¬ Unnamed "a[1].b".toList := by decide +kernel

/-! ## What the readers take from such a text -/

section

variable {table : SymbolTable} {arena : Arena} {deeper : Bool → Reader Target}
  {start finish : Cursor}

theorem identifier_empty (no_dollar : '$' ∉ start.rest)
    (other : start.rest.head?.any beginsIdentifier = false) :
    ∃ finish, identifier table arena deeper start = .ok "" finish := by
  rcases start with ⟨position, _ | ⟨first, rest⟩⟩
  · exact ⟨_, rfl⟩
  · have plain : first ≠ '$' := by
      rintro rfl
      exact no_dollar List.mem_cons_self
    have other : beginsIdentifier first = false := other
    unfold identifier
    refine ⟨Cursor.next ⟨position, first :: rest⟩, (bind_of_ok rfl).trans ?_⟩
    simp only [List.head?_cons]
    rw [if_neg (Bool.eq_false_iff.mp other)]
    exact bind_of_ok rfl

theorem identifier_cases (no_dollar : '$' ∉ start.rest) {name : String}
    (ran : identifier table arena deeper start = .ok name finish) :
    (IsIdentifier name ∧ start.rest = name.toList ++ finish.rest) ∨
      name = "" ∧ start.rest.head?.any beginsIdentifier = false := by
  cases begins : start.rest.head?.any beginsIdentifier with
  | false =>
    rcases @identifier_empty table arena deeper start no_dollar begins with ⟨place, empty⟩
    cases empty.symm.trans ran
    exact .inr ⟨rfl, rfl⟩
  | true =>
    rcases start with ⟨position, rest⟩
    simp only at begins no_dollar
    have split := List.takeWhile_append_dropWhile (p := continuesIdentifier) (l := rest)
    have taken : (String.ofList (rest.takeWhile continuesIdentifier)).toList =
        rest.takeWhile continuesIdentifier := String.toList_ofList
    have isIdentifier := isIdentifier_takeWhile begins
    have read := @run_identifier table arena deeper (rest.dropWhile continuesIdentifier) _
      isIdentifier (Text.stops_dropWhile _ _) position
    rw [taken, split] at read
    cases read.symm.trans ran
    exact .inl ⟨isIdentifier, by rw [taken, split]⟩

/-- A strict table reads an index that is not computed as digits, and the bracket behind them. -/
theorem index_cases (strict : table.robust = false)
    (digit : start.rest.head?.any Text.isDigit = true) {index : Option Nat} {place : Cursor}
    (read : indexValue table arena deeper start = .ok index place)
    (closed : closeBracket table place = .ok () finish) :
    ∃ digits, digits ≠ [] ∧ (∀ digit ∈ digits, Text.isDigit digit = true) ∧
      start.rest = digits ++ ']' :: finish.rest := by
  rcases start with ⟨position, rest⟩
  have split := List.takeWhile_append_dropWhile (p := Text.isDigit) (l := rest)
  have present : rest.takeWhile Text.isDigit ≠ [] := by
    rcases rest with _ | ⟨first, rest⟩
    · cases digit
    · have digit : Text.isDigit first = true := digit
      rw [List.takeWhile_cons_of_pos digit]
      exact List.cons_ne_nil _ _
  have areDigits : ∀ digit ∈ rest.takeWhile Text.isDigit, Text.isDigit digit = true :=
    fun _ => List.mem_takeWhile_imp
  have taken := @indexValue_run table arena deeper (rest.dropWhile Text.isDigit) _ present areDigits
    position (Text.stops_dropWhile _ _)
  rw [split] at taken
  have ended := taken.symm.trans read
  split at ended
  · cases ended
    refine ⟨_, present, areDigits, ?_⟩
    rcases bind_eq_ok_iff.mp closed with ⟨next, _, ⟨⟩, closed⟩
    simp only at closed
    split at closed
    · rename_i bracket
      cases closed
      rcases behind : rest.dropWhile Text.isDigit with _ | ⟨last, after⟩
      · rw [behind] at bracket
        cases bracket
      · rw [behind] at bracket split
        cases bracket
        exact split.symm
    · rw [if_neg (Bool.eq_false_iff.mp strict)] at closed
      cases closed
  · exact absurd ended (badIndex_of_strict strict)

theorem indices_cases (strict : table.robust = false) {rounds : List Char}
    {current reached : Option NodeId} (literal : Literal start.rest)
    (enough : start.rest.length ≤ rounds.length)
    (ran : indices table arena deeper rounds current start = .ok reached finish) :
    ∃ all, start.rest = bracketed all ++ finish.rest ∧
      (∀ digits ∈ all, digits ≠ [] ∧ ∀ digit ∈ digits, Text.isDigit digit = true) ∧
      finish.rest.head? ≠ some '[' := by
  induction rounds generalizing current start with
  | nil =>
    cases ran
    have empty : finish.rest = [] := List.eq_nil_of_length_eq_zero (Nat.le_zero.mp enough)
    exact ⟨[], rfl, nofun, by rw [empty]; nofun⟩
  | cons round rounds induction =>
    by_cases bracket : start.rest.head? = some '['
    · rcases indices_cons_inv bracket ran with ⟨index, place, closed, read, ended, onward⟩
      rcases start with ⟨position, _ | ⟨first, rest⟩⟩
      · cases bracket
      · cases bracket
        rcases index_cases strict (literal.digit (List.nil_append _).symm) read ended with
          ⟨digits, present, areDigits, same⟩
        have same : rest = digits ++ ']' :: closed.rest := same
        subst same
        have shorter : closed.rest.length ≤ rounds.length := by
          simp only [List.length_cons, List.length_append] at enough
          omega
        have onLiteral : Literal ('[' :: (digits ++ [']']) ++ closed.rest) := by
          simpa using literal
        rcases induction onLiteral.behind shorter onward with ⟨others, split, areAll, stops⟩
        have split : '[' :: (digits ++ ']' :: closed.rest) =
            bracketed (digits :: others) ++ finish.rest := by
          rw [bracketed_cons, ← split]
        exact ⟨digits :: others, split,
          List.forall_mem_cons.mpr ⟨⟨present, areDigits⟩, areAll⟩, stops⟩
    · rw [indices_of_no_bracket bracket] at ran
      cases ran
      exact ⟨[], rfl, nofun, bracket⟩

end

/-! ## Destinations -/

section

variable {table : SymbolTable} {arena : Arena} {text : String} {node : Option NodeId}
  {name : Option String} {finish : Cursor}

/-- What a strict table reads as a destination without computing anything. Where it reads a node,
the text is a plain path, or its name is empty. -/
theorem destination_cases (strict : table.robust = false) (literal : Literal text.toList)
    (read : table.destination arena (.ofText text) = .ok (node, name) finish) :
    (text.toList.head?.any beginsIdentifier = false ∧ node = none) ∨
      (∃ plain : Plain, plain.text = text ∧ plain.attr = name) ∨
        (name = some "" ∧ Unnamed text.toList) := by
  rcases destination_eq_ok_iff.mp read with ⟨middle, primed, named, accepted⟩
  have ended : finish.rest = [] := accepted.resolve_left (Bool.eq_false_iff.mp strict)
  rcases bind_eq_ok_iff.mp primed with ⟨key, start, keyed, primed⟩
  have noDollar : '$' ∉ (Cursor.ofText text).rest := literal.no_dollar
  rcases identifier_cases noDollar keyed with
    ⟨isIdentifier, front⟩ | ⟨rfl, other⟩
  · rw [if_neg isIdentifier.ne_empty] at primed
    rcases bind_eq_ok_iff.mp primed with ⟨_, _, ⟨⟩, followed⟩
    have front : text.toList = key.toList ++ start.rest := front
    have onLiteral : Literal start.rest := Literal.behind (front ▸ literal)
    rcases indices_cases strict onLiteral (Nat.le_refl _) followed with
      ⟨all, between, areDigits, stops⟩
    by_cases point : middle.rest.head? = some '.'
    · rcases (attrName_of_point point).mp named with ⟨attr, read, rfl⟩
      rcases middle with ⟨position, _ | ⟨first, rest⟩⟩
      · cases point
      · cases point
        have whole : text.toList = key.toList ++ (bracketed all ++ '.' :: rest) := by
          rw [front, between]
        have noDollar : '$' ∉ (Cursor.next ⟨position, '.' :: rest⟩).rest := by
          have member := literal.no_dollar
          rw [whole] at member
          exact fun inside => member (by simp [show '$' ∈ rest from inside])
        rcases identifier_cases noDollar read with
          ⟨isIdentifierAttr, same⟩ | ⟨rfl, other⟩
        · have same : rest = attr.toList ++ finish.rest := same
          rw [ended, List.append_nil] at same
          refine .inr (.inl ⟨⟨key, all, some attr, isIdentifier, areDigits, ?_⟩, ?_, rfl⟩)
          · rintro _ ⟨⟩
            exact isIdentifierAttr
          · rw [← String.toList_inj, Plain.toList_text, whole, same]
            rfl
        · exact .inr (.inr ⟨rfl, key.toList ++ bracketed all, rest, by simp [whole], other⟩)
    · cases (attrName_of_other point).symm.trans named
      refine .inr (.inl ⟨⟨key, all, none, isIdentifier, areDigits, nofun⟩, ?_, rfl⟩)
      rw [← String.toList_inj, Plain.toList_text, front, between, ended]
      rfl
  · rw [if_pos rfl] at primed
    cases primed
    exact .inl ⟨other, rfl⟩

end

theorem IsIdentifier.no_point {name : String} (isIdentifier : IsIdentifier name) :
    '.' ∉ name.toList :=
  fun member => absurd (isIdentifier.continues '.' member) (by decide)

theorem Plain.not_unnamed (plain : Plain) : ¬ Unnamed plain.text.toList := by
  rintro ⟨front, rest, same, unnamed⟩
  have noPoint : '.' ∉ plain.key.toList ++ bracketed plain.indices := by
    intro member
    rcases List.mem_append.mp member with inKey | inIndices
    · exact plain.isIdentifier_key.no_point inKey
    · rcases List.mem_flatMap.mp inIndices with ⟨digits, inside, among⟩
      have isDigit := (plain.isDigit_indices digits inside).2 '.'
      simp only [List.mem_cons, List.mem_append, List.not_mem_nil, or_false] at among
      rcases among with bracket | digit | bracket
      · cases bracket
      · exact absurd (isDigit digit) (by decide)
      · cases bracket
  have among : ∃ before, plain.attrText = before ++ '.' :: rest := by
    rw [plain.toList_text, ← List.append_assoc] at same
    rcases List.append_eq_append_iff.mp same with ⟨before, -, behind⟩ | ⟨before, inside, behind⟩
    · exact ⟨before, behind⟩
    · rcases before with _ | ⟨first, before⟩
      · exact ⟨[], behind.symm⟩
      · cases behind
        exact absurd (by simp [inside]) noPoint
  rcases among with ⟨before, split⟩
  rcases plain.attrText_cases with ⟨-, empty⟩ | ⟨name, -, isIdentifier, whole⟩
  · rw [empty] at split
    exact absurd split.symm (List.append_ne_nil_of_right_ne_nil _ (List.cons_ne_nil _ _))
  · rw [whole] at split
    rcases before with _ | ⟨first, before⟩
    · cases split
      exact absurd isIdentifier.begins (Bool.eq_false_iff.mp unnamed)
    · have behind : name.toList = before ++ '.' :: rest := List.tail_eq_of_cons_eq split
      exact isIdentifier.no_point (behind ▸ List.mem_append_right before List.mem_cons_self)

end Path
end RecordGraph
