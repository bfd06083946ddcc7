import RecordGraph.Proofs.Arena.Replacement
import RecordGraph.Proofs.Path.Parts
import RecordGraph.Proofs.Path.Refusal

/-!
# Paths that are written out

A plain path is an identifier, indices in digits, and perhaps the name of an attribute. Nothing in
it is looked up to read it, so it is read alike in every state, and where it leads is a matter of
the bindings and the child lists alone.
-/

namespace RecordGraph

namespace Path

structure IsIdentifier (name : String) : Prop where
  begins : name.toList.head?.any beginsIdentifier = true
  continues : ∀ character ∈ name.toList, continuesIdentifier character = true

structure Plain where
  key : String
  indices : List (List Char)
  attr : Option String
  isIdentifier_key : IsIdentifier key
  isDigit_indices : ∀ digits ∈ indices, digits ≠ [] ∧ ∀ digit ∈ digits, Text.isDigit digit = true
  isIdentifier_attr : ∀ name ∈ attr, IsIdentifier name

/-- The longest run of characters that go on an identifier is one where it begins as one does. -/
theorem isIdentifier_takeWhile {text : List Char}
    (begins : text.head?.any beginsIdentifier = true) :
    IsIdentifier (String.ofList (text.takeWhile continuesIdentifier)) := by
  rcases text with _ | ⟨first, rest⟩
  · cases begins
  · have begins : beginsIdentifier first = true := begins
    constructor
    · rw [String.toList_ofList,
        List.takeWhile_cons_of_pos (continuesIdentifier_of_begins begins), List.head?_cons,
        Option.any_some, begins]
    · rw [String.toList_ofList]
      exact fun _ => List.mem_takeWhile_imp

theorem isIdentifier_none : ∀ name ∈ (none : Option String), IsIdentifier name :=
  fun name given => absurd given (Option.not_mem_none name)

def bracketed (indices : List (List Char)) : List Char :=
  indices.flatMap fun digits => '[' :: (digits ++ [']'])

def indexOf (digits : List Char) : Nat :=
  Text.boundedNumber indexBound digits

namespace Plain

variable (plain : Plain)

def attrText : List Char :=
  (plain.attr.map fun name => '.' :: name.toList).getD []

def text : String :=
  String.ofList (plain.key.toList ++ (bracketed plain.indices ++ plain.attrText))

def numbers : List Nat :=
  plain.indices.map indexOf

def Small : Prop :=
  ∀ digits ∈ plain.indices, indexOf digits < indexBound

end Plain

/-! ## Taking a run -/

theorem Cursor.takeWhile_run {test : Char → Bool} {run rest : List Char}
    (passes : ∀ character ∈ run, test character = true) (stops : Text.Stops test rest)
    (position : Nat) :
    takeWhile test position (run ++ rest) = (run, ⟨position + byteSize run, rest⟩) := by
  induction run generalizing position with
  | nil =>
    cases rest with
    | nil => rfl
    | cons character rest => simp [takeWhile, Text.stops_cons.mp stops, byteSize]
  | cons character run induction =>
    have first := passes character List.mem_cons_self
    have others := induction (fun other member => passes other (List.mem_cons_of_mem _ member))
    simp [takeWhile, first, others, byteSize, Nat.add_assoc]

section

variable {table : SymbolTable} {arena : Arena} {deeper : Bool → Reader Target} {rest : List Char}

theorem run_identifier {name : String} (isIdentifier : IsIdentifier name)
    (stops : Text.Stops continuesIdentifier rest) (position : Nat) :
    identifier table arena deeper ⟨position, name.toList ++ rest⟩ =
      .ok name ⟨position + byteSize name.toList, rest⟩ := by
  have begins := isIdentifier.begins
  have taken : Reader.takeWhile continuesIdentifier ⟨position, name.toList ++ rest⟩ =
      .ok name.toList ⟨position + byteSize name.toList, rest⟩ := by
    have run := Cursor.takeWhile_run isIdentifier.continues stops position
    change EStateM.Result.ok (Cursor.takeWhile _ position (name.toList ++ rest)).1
      (Cursor.takeWhile _ position (name.toList ++ rest)).2 = _
    rw [run]
  obtain ⟨first, first?⟩ : ∃ first, name.toList.head? = some first := by
    cases front : name.toList.head? with
    | none => simp [front] at begins
    | some first => exact ⟨first, rfl⟩
  rw [first?, Option.any_some] at begins
  have peeked : Reader.peek ⟨position, name.toList ++ rest⟩ =
      .ok (some first) ⟨position, name.toList ++ rest⟩ := by
    change EStateM.Result.ok (name.toList ++ rest).head? _ = _
    rw [List.head?_append, first?, Option.some_or]
  unfold identifier
  refine (bind_of_ok peeked).trans ?_
  generalize next : some first = front
  split
  · cases next
  · cases next
    exact absurd begins (by decide)
  · cases next
    rw [if_pos begins]
    refine (bind_of_ok taken).trans ?_
    rw [String.ofList_toList]
    rfl

section

variable {digits : List Char} (present : digits ≠ [])
  (isDigit : ∀ digit ∈ digits, Text.isDigit digit = true) {position : Nat} {finish : Cursor}

include present isDigit

theorem indexValue_run (stops : Text.Stops Text.isDigit rest) :
    indexValue table arena deeper ⟨position, digits ++ rest⟩ =
      (if indexOf digits < indexBound then return some (indexOf digits)
        else badIndex table position : Reader (Option Nat))
        ⟨position + byteSize digits, rest⟩ := by
  have taken : Reader.takeWhile Text.isDigit ⟨position, digits ++ rest⟩ =
      .ok digits ⟨position + byteSize digits, rest⟩ := by
    have run := Cursor.takeWhile_run isDigit stops position
    change EStateM.Result.ok (Cursor.takeWhile _ position (digits ++ rest)).1
      (Cursor.takeWhile _ position (digits ++ rest)).2 = _
    rw [run]
  obtain ⟨first, others, rfl⟩ := List.exists_cons_of_ne_nil present
  have digit := isDigit first List.mem_cons_self
  unfold indexValue
  refine (bind_of_ok rfl).trans ((bind_of_ok rfl).trans ?_)
  simp only [List.cons_append, digit, ↓reduceIte]
  exact bind_of_ok taken

theorem indexValue_digits :
    indexValue table arena deeper ⟨position, digits ++ ']' :: rest⟩ =
      (if indexOf digits < indexBound then return some (indexOf digits)
        else badIndex table position : Reader (Option Nat))
        ⟨position + byteSize digits, ']' :: rest⟩ :=
  indexValue_run present isDigit (Text.stops_cons.mpr (by decide))

theorem indexValue_eq_ok_iff {index : Nat} :
    indexValue table arena deeper ⟨position, digits ++ ']' :: rest⟩ = .ok (some index) finish ↔
      indexOf digits < indexBound ∧ index = indexOf digits ∧
        finish = ⟨position + byteSize digits, ']' :: rest⟩ := by
  rw [indexValue_digits present isDigit]
  constructor
  · intro ran
    split at ran
    · rename_i small
      cases ran
      exact ⟨small, rfl, rfl⟩
    · cases badIndex_eq_ok ran
  · rintro ⟨small, rfl, rfl⟩
    rw [if_pos small]
    rfl

theorem behind_digits {index : Option Nat}
    (ran : indexValue table arena deeper ⟨position, digits ++ ']' :: rest⟩ = .ok index finish) :
    finish = ⟨position + byteSize digits, ']' :: rest⟩ := by
  rw [indexValue_digits present isDigit] at ran
  split at ran
  · cases ran
    rfl
  · unfold badIndex at ran
    split at ran <;> cases ran
    rfl

end

theorem closeBracket_eq (position : Nat) :
    closeBracket table ⟨position, ']' :: rest⟩ = .ok () ⟨position + 1, rest⟩ := by
  unfold closeBracket
  exact bind_of_ok rfl

/-! ## Following indices -/

def Cursor.behind (position : Nat) (indices : List (List Char)) (rest : List Char) : Cursor :=
  ⟨position + byteSize (bracketed indices), rest⟩

theorem bracketed_cons (digits : List Char) (indices : List (List Char)) :
    bracketed (digits :: indices) ++ rest =
      '[' :: (digits ++ ']' :: (bracketed indices ++ rest)) := by
  simp [bracketed]

theorem behind_cons (position : Nat) (digits : List Char) (indices : List (List Char)) :
    Cursor.behind (position + 1 + byteSize digits + 1) indices rest =
      .behind position (digits :: indices) rest := by
  have sizes : Char.utf8Size '[' = 1 ∧ Char.utf8Size ']' = 1 := by decide
  simp only [Cursor.behind, bracketed, byteSize, List.flatMap_cons, List.cons_append,
    List.append_assoc, List.map_cons, List.map_append, List.sum_cons, List.sum_append,
    List.map_nil, List.sum_nil, sizes.1, sizes.2, Cursor.mk.injEq, and_true]
  omega

/-- Indices of digits, with a round for each of them. -/
inductive Indexed : List (List Char) → List Char → Prop
  | nil (rounds : List Char) : Indexed [] rounds
  | cons {digits : List Char} {indices : List (List Char)} {round : Char} {rounds : List Char}
      (present : digits ≠ []) (isDigit : ∀ digit ∈ digits, Text.isDigit digit = true)
      (behind : Indexed indices rounds) : Indexed (digits :: indices) (round :: rounds)

theorem Indexed.of_length {indices : List (List Char)} {rounds : List Char}
    (areDigits : ∀ digits ∈ indices, digits ≠ [] ∧ ∀ digit ∈ digits, Text.isDigit digit = true)
    (enough : indices.length ≤ rounds.length) : Indexed indices rounds := by
  induction indices generalizing rounds with
  | nil => exact .nil rounds
  | cons digits indices induction =>
    cases rounds with
    | nil => cases enough
    | cons round rounds =>
      rcases List.forall_mem_cons.mp areDigits with ⟨⟨present, isDigit⟩, others⟩
      exact .cons present isDigit (induction others (Nat.le_of_succ_le_succ enough))

theorem Indexed.of_bracketed {indices : List (List Char)}
    (areDigits : ∀ digits ∈ indices, digits ≠ [] ∧ ∀ digit ∈ digits, Text.isDigit digit = true)
    (rest : List Char) : Indexed indices (bracketed indices ++ rest) := by
  refine .of_length areDigits ?_
  clear areDigits
  induction indices with
  | nil => exact Nat.zero_le _
  | cons digits indices induction =>
    simp only [bracketed_cons, List.length_cons, List.length_append] at induction ⊢
    omega

variable {indices : List (List Char)} {rounds : List Char} (indexed : Indexed indices rounds)
  (ends : rest.head? ≠ some '[')

include indexed ends

theorem indices_eq_ok_iff {origin node : NodeId} {position : Nat} {finish : Cursor} :
    Path.indices table arena (inner table arena) rounds (some origin)
        ⟨position, bracketed indices ++ rest⟩ = .ok (some node) finish ↔
      (∀ digits ∈ indices, indexOf digits < indexBound) ∧
        arena.descend origin (indices.map indexOf) = some node ∧
        finish = .behind position indices rest := by
  induction indexed generalizing origin position with
  | nil =>
    rw [indices_of_no_bracket ends]
    constructor
    · rintro ⟨⟩
      exact ⟨nofun, rfl, rfl⟩
    · rintro ⟨-, ⟨⟩, rfl⟩
      rfl
  | @cons digits indices round rounds present isDigit _ induction =>
    rw [bracketed_cons, indices_cons_eq_ok_iff rfl, ← behind_cons]
    constructor
    · rintro ⟨_, index, _, closed, child, ⟨⟩, read, ended, stands, onward⟩
      rcases (indexValue_eq_ok_iff present isDigit).mp read with ⟨small, rfl, rfl⟩
      cases (closeBracket_eq _).symm.trans ended
      rcases induction.mp onward with ⟨smaller, reached, rfl⟩
      refine ⟨List.forall_mem_cons.mpr ⟨small, smaller⟩, ?_, rfl⟩
      rw [List.map_cons, Arena.descend, stands, Option.bind_some, reached]
    · rintro ⟨small, reached, rfl⟩
      rcases List.forall_mem_cons.mp small with ⟨small, smaller⟩
      rcases Option.bind_eq_some_iff.mp reached with ⟨child, stands, reached⟩
      exact ⟨_, _, _, _, child, rfl, (indexValue_eq_ok_iff present isDigit).mpr ⟨small, rfl, rfl⟩,
        closeBracket_eq _, stands, induction.mpr ⟨smaller, reached, rfl⟩⟩

theorem behind_of_indices {current reached : Option NodeId} {position : Nat} {finish : Cursor}
    (ran : Path.indices table arena (inner table arena) rounds current
      ⟨position, bracketed indices ++ rest⟩ = .ok reached finish) :
    finish = .behind position indices rest := by
  induction indexed generalizing current position with
  | nil =>
    rw [indices_of_no_bracket ends] at ran
    cases ran
    rfl
  | @cons digits indices round rounds present isDigit _ induction =>
    rw [bracketed_cons] at ran
    rcases indices_cons_inv rfl ran with ⟨index, place, closed, read, ended, onward⟩
    cases behind_digits present isDigit read
    cases (closeBracket_eq _).symm.trans ended
    rw [← behind_cons]
    exact induction onward

theorem indices_of_none {position : Nat} (small : ∀ digits ∈ indices, indexOf digits < indexBound) :
    Path.indices table arena (inner table arena) rounds none
      ⟨position, bracketed indices ++ rest⟩ = .ok none (.behind position indices rest) := by
  induction indexed generalizing position with
  | nil => exact indices_of_no_bracket ends
  | @cons digits indices round rounds present isDigit _ induction =>
    rcases List.forall_mem_cons.mp small with ⟨within, smaller⟩
    have read : indexValue table arena (inner table arena)
        (Cursor.next ⟨position, '[' :: (digits ++ ']' :: (bracketed indices ++ rest))⟩) =
          .ok (some (indexOf digits))
            ⟨position + 1 + byteSize digits, ']' :: (bracketed indices ++ rest)⟩ :=
      (indexValue_eq_ok_iff present isDigit).mpr ⟨within, rfl, rfl⟩
    have opened : Path.indices table arena (inner table arena) (round :: rounds) none
        ⟨position, '[' :: (digits ++ ']' :: (bracketed indices ++ rest))⟩ = _ :=
      indices_cons rfl read (closeBracket_eq _)
    rw [bracketed_cons, opened, Option.bind_none, ← behind_cons]
    exact induction smaller

end

/-! ## Reading a plain path -/

theorem IsIdentifier.ne_empty {name : String} (isIdentifier : IsIdentifier name) : name ≠ "" := by
  rintro rfl
  exact absurd isIdentifier.begins (by decide)

theorem beginsIndirection_of_begins {first : Char} (begins : beginsIdentifier first = true)
    (rest : List Char) : beginsIndirection (first :: rest) = false := by
  have other : first ≠ '$' := by
    rintro rfl
    exact absurd begins (by decide)
  cases rest <;> simp [beginsIndirection, other]

namespace Plain

variable (plain : Plain)

theorem toList_text :
    plain.text.toList = plain.key.toList ++ (bracketed plain.indices ++ plain.attrText) := by
  simp [text]

theorem attrText_cases :
    (plain.attr = none ∧ plain.attrText = []) ∨
      ∃ name, plain.attr = some name ∧ IsIdentifier name ∧ plain.attrText = '.' :: name.toList := by
  cases given : plain.attr with
  | none => exact .inl ⟨rfl, by simp [attrText, given]⟩
  | some name =>
    exact .inr ⟨name, rfl, plain.isIdentifier_attr name given, by simp [attrText, given]⟩

theorem no_bracket_attrText : plain.attrText.head? ≠ some '[' := by
  rcases plain.attrText_cases with ⟨-, same⟩ | ⟨name, -, -, same⟩ <;> simp [same]

def start : Cursor :=
  ⟨0 + byteSize plain.key.toList, bracketed plain.indices ++ plain.attrText⟩

theorem indexed : Indexed plain.indices plain.start.rest :=
  .of_bracketed plain.isDigit_indices plain.attrText

def middle : Cursor :=
  .behind (0 + byteSize plain.key.toList) plain.indices plain.attrText

theorem small_of_nil (none : plain.indices = []) : plain.Small := by
  rw [Small, none]
  exact List.forall_mem_nil _

theorem middle_of_nil (none : plain.indices = []) : plain.middle = plain.start := by
  simp [middle, start, Cursor.behind, none, bracketed, byteSize]

theorem numbers_of_nil (none : plain.indices = []) : plain.numbers = [] := by
  rw [numbers, none, List.map_nil]

theorem buildIndices_of_nil (none : plain.indices = []) {table : SymbolTable} {create : Bool}
    {template : Option NodeId} {origin : NodeId} {arena : Arena} :
    buildIndices table create template origin ⟨plain.start, arena⟩ =
      .ok (some origin) ⟨plain.start, arena⟩ :=
  buildIndices_of_no_bracket (by simpa [start, none, bracketed] using plain.no_bracket_attrText)

variable (table : SymbolTable) (arena : Arena)

theorem read_key (deeper : Bool → Reader Target) :
    identifier table arena deeper (.ofText plain.text) = .ok plain.key plain.start := by
  have stops : Text.Stops continuesIdentifier (bracketed plain.indices ++ plain.attrText) := by
    cases indices : plain.indices with
    | nil =>
      rcases plain.attrText_cases with ⟨-, same⟩ | ⟨name, -, -, same⟩
      · simp [bracketed, same]
      · rw [same]
        exact Text.stops_cons.mpr (by decide)
    | cons digits indices =>
      rw [bracketed_cons]
      exact Text.stops_cons.mpr (by decide)
  rw [Cursor.ofText, toList_text]
  exact run_identifier plain.isIdentifier_key stops 0

theorem read_attr (position : Nat) :
    ∃ finish, attrName table arena ⟨position, plain.attrText⟩ = .ok plain.attr finish ∧
      finish.rest = [] := by
  rcases plain.attrText_cases with ⟨none, same⟩ | ⟨name, given, isIdentifier, same⟩
  · rw [none, same]
    exact ⟨_, attrName_of_other nofun, rfl⟩
  · have read := @run_identifier table arena (inner table arena) [] name isIdentifier Text.stops_nil
      (position + 1)
    rw [List.append_nil] at read
    rw [given, same]
    exact ⟨_, (attrName_of_point rfl).mpr ⟨name, read, rfl⟩, rfl⟩

theorem direct : beginsIndirection plain.text.toList = false := by
  have begins := plain.isIdentifier_key.begins
  rw [toList_text]
  cases front : plain.key.toList with
  | nil => simp [front] at begins
  | cons first others =>
    rw [front, List.head?_cons, Option.any_some] at begins
    exact beginsIndirection_of_begins begins _

theorem primary_text :
    primary table arena (inner table arena) (.ofText plain.text) =
      Path.indices table arena (inner table arena) plain.start.rest (table.lookup plain.key)
        plain.start := by
  unfold primary
  refine (bind_of_ok (plain.read_key table arena (inner table arena))).trans ?_
  rw [if_neg plain.isIdentifier_key.ne_empty]
  exact bind_of_ok rfl

theorem middle_of_primary {reached : Option NodeId} {finish : Cursor}
    (ran : primary table arena (inner table arena) (.ofText plain.text) = .ok reached finish) :
    finish = plain.middle := by
  rw [primary_text] at ran
  exact behind_of_indices plain.indexed plain.no_bracket_attrText ran

theorem primary_eq_ok_iff {node : NodeId} {finish : Cursor} :
    primary table arena (inner table arena) (.ofText plain.text) = .ok (some node) finish ↔
      ∃ origin, table.lookup plain.key = some origin ∧ plain.Small ∧
        arena.descend origin plain.numbers = some node ∧ finish = plain.middle := by
  rw [primary_text]
  cases bound : table.lookup plain.key with
  | none =>
    constructor
    · intro ran
      cases indices_none ran
    · rintro ⟨_, ⟨⟩, -⟩
  | some origin =>
    have followed := @indices_eq_ok_iff table arena plain.attrText plain.indices plain.start.rest
      plain.indexed plain.no_bracket_attrText origin node (0 + byteSize plain.key.toList) finish
    constructor
    · intro ran
      exact ⟨origin, rfl, followed.mp ran⟩
    · rintro ⟨_, ⟨⟩, reached⟩
      exact followed.mpr reached

end Plain

end Path

namespace SymbolTable

open RecordGraph.Path (Plain)

variable {table : SymbolTable} {arena : Arena} {plain : Plain} {origin node : NodeId}

/-- The node of a plain path is the one that its indices lead to from the node of the key. -/
theorem find_eq_some_iff_descends : table.find arena plain.text = some node ↔
    ∃ origin, table.lookup plain.key = some origin ∧ plain.Small ∧
      arena.descend origin plain.numbers = some node := by
  have primed := @Plain.primary_eq_ok_iff plain table arena node plain.middle
  simp only [and_true] at primed
  rw [← primed, find, primaryAt]
  cases ran : (Path.primary table arena (Path.inner table arena)).run (.ofText plain.text) with
  | error failure place =>
    have ran : Path.primary table arena (Path.inner table arena) (.ofText plain.text) =
      .error failure place := ran
    simp [ran]
  | ok found place =>
    have ran : Path.primary table arena (Path.inner table arena) (.ofText plain.text) =
      .ok found place := ran
    cases plain.middle_of_primary table arena ran
    rw [ran]
    constructor
    · rintro rfl
      rfl
    · rintro ⟨⟩
      rfl

theorem reads_plain (bound : table.lookup plain.key = some origin) (small : plain.Small)
    (reached : arena.descend origin plain.numbers = some node) :
    table.find arena plain.text = some node ∧
      table.query arena plain.text =
        Path.Target.value ⟨node, (destinationAttr arena plain.attr false).1⟩ arena := by
  have primed := (plain.primary_eq_ok_iff table arena).mpr ⟨origin, bound, small, reached, rfl⟩
  rcases plain.read_attr table arena plain.middle.position with ⟨finish, read, ends⟩
  constructor
  · have primed : (Path.primary table arena (Path.inner table arena)).run (.ofText plain.text) =
        .ok (some node) plain.middle := primed
    rw [find, primaryAt, primed]
  · have ran : (Path.path table arena false).run (.ofText plain.text) =
        .ok ⟨some node, (destinationAttr arena plain.attr false).1⟩ finish :=
      (Path.path_eq_ok_iff plain.direct).mpr ⟨_, _, primed, read, .inr ends, rfl⟩
    rw [query, resolve, Path.resolve, ran]

end SymbolTable
end RecordGraph
