import Mathlib
import RecordGraph.Path.Lookup

/-!
# Readers move forward

A reader takes characters from the front of what is left of a text, whether it succeeds or fails. So
it never stands outside the text or inside a character, and what is left never grows.
-/

namespace RecordGraph

/-- A step and what follows it succeed if the step does and what follows does from there on. -/
theorem bind_eq_ok_iff {first : EStateM ε σ α} {next : α → EStateM ε σ β} {start finish : σ}
    {result : β} :
    (first >>= next) start = .ok result finish ↔
      ∃ middle place, first start = .ok middle place ∧ next middle place = .ok result finish := by
  change EStateM.bind first next start = _ ↔ _
  unfold EStateM.bind
  cases first start with
  | ok middle place =>
    constructor
    · exact fun ends => ⟨middle, place, rfl, ends⟩
    · rintro ⟨_, _, ⟨⟩, ends⟩
      exact ends
  | error failure place => simp

theorem bind_of_ok {first : EStateM ε σ α} {next : α → EStateM ε σ β} {start place : σ} {middle : α}
    (ran : first start = .ok middle place) : (first >>= next) start = next middle place := by
  change EStateM.bind first next start = _
  rw [EStateM.bind, ran]

theorem bind_of_error {first : EStateM ε σ α} {next : α → EStateM ε σ β} {start place : σ}
    {failure : ε} (ran : first start = .error failure place) :
    (first >>= next) start = .error failure place := by
  change EStateM.bind first next start = _
  rw [EStateM.bind, ran]

theorem get_eq (place : σ) : (get : EStateM ε σ σ) place = .ok place place := rfl

theorem bind_congr_of_ok {first : EStateM ε σ α} {next other : α → EStateM ε σ β} {start : σ}
    (same : ∀ middle place, first start = .ok middle place →
      next middle place = other middle place) :
    (first >>= next) start = (first >>= other) start := by
  cases ran : first start with
  | ok middle place => rw [bind_of_ok ran, bind_of_ok ran, same middle place ran]
  | error failure place => rw [bind_of_error ran, bind_of_error ran]

namespace Path

theorem continuesIdentifier_of_begins {character : Char}
    (begins : beginsIdentifier character = true) : continuesIdentifier character = true := by
  rw [continuesIdentifier, Bool.or_eq_true, Bool.or_eq_true]
  exact .inl (.inl begins)

def byteSize (characters : List Char) : Nat :=
  (characters.map Char.utf8Size).sum

theorem byteSize_append (front rest : List Char) :
    byteSize (front ++ rest) = byteSize front + byteSize rest := by
  rw [byteSize, List.map_append, List.sum_append, byteSize, byteSize]

theorem byteSize_cons (character : Char) (rest : List Char) :
    byteSize (character :: rest) = character.utf8Size + byteSize rest := by
  rw [byteSize, List.map_cons, List.sum_cons, byteSize]

namespace Cursor

/-- Characters from the front of what is left lead from one place to the other. -/
def Reaches (start finish : Cursor) : Prop :=
  ∃ taken, start.rest = taken ++ finish.rest ∧ finish.position = start.position + byteSize taken

namespace Reaches

theorem refl (cursor : Cursor) : cursor.Reaches cursor :=
  ⟨[], rfl, rfl⟩

theorem trans {start middle finish : Cursor} (left : start.Reaches middle)
    (right : middle.Reaches finish) : start.Reaches finish := by
  rcases left with ⟨first, rest, position⟩
  rcases right with ⟨second, restLater, positionLater⟩
  refine ⟨first ++ second, by rw [rest, restLater, List.append_assoc], ?_⟩
  rw [positionLater, position, byteSize_append, Nat.add_assoc]

theorem position_le {start finish : Cursor} (reaches : start.Reaches finish) :
    start.position ≤ finish.position := by
  rcases reaches with ⟨taken, -, position⟩
  rw [position]
  exact Nat.le_add_right _ _

theorem length_le {start finish : Cursor} (reaches : start.Reaches finish) :
    finish.rest.length ≤ start.rest.length := by
  rcases reaches with ⟨taken, rest, -⟩
  rw [rest, List.length_append]
  exact Nat.le_add_left _ _

theorem cons (position : Nat) (character : Char) (rest : List Char) :
    (Cursor.mk position (character :: rest)).Reaches ⟨position + character.utf8Size, rest⟩ :=
  ⟨[character], rfl, rfl⟩

end Reaches

theorem reaches_next (cursor : Cursor) : cursor.Reaches cursor.next := by
  rcases cursor with ⟨position, _ | ⟨character, rest⟩⟩
  · exact .refl _
  · exact .cons position character rest

theorem lt_next {cursor : Cursor} (left : cursor.rest ≠ []) :
    cursor.position < cursor.next.position := by
  rcases cursor with ⟨position, _ | ⟨character, rest⟩⟩
  · exact absurd rfl left
  · exact Nat.lt_add_of_pos_right character.utf8Size_pos

theorem reaches_skipPast (mark : Char) (position : Nat) (rest : List Char) :
    (Cursor.mk position rest).Reaches (skipPast mark position rest) := by
  induction rest generalizing position with
  | nil => exact .refl _
  | cons character rest induction =>
    unfold skipPast
    split
    · exact .cons position character rest
    · exact (Reaches.cons position character rest).trans (induction _)

theorem reaches_takeWhile (test : Char → Bool) (position : Nat) (rest : List Char) :
    (Cursor.mk position rest).Reaches (takeWhile test position rest).2 := by
  induction rest generalizing position with
  | nil => exact .refl _
  | cons character rest induction =>
    unfold takeWhile
    split
    · exact (Reaches.cons position character rest).trans (induction _)
    · exact .refl _

end Cursor

namespace Reader

theorem peek_eq (start : Cursor) : peek start = .ok start.rest.head? start := rfl

theorem takeWhile_eq (test : Char → Bool) (start : Cursor) :
    takeWhile test start = .ok (Cursor.takeWhile test start.position start.rest).1
      (Cursor.takeWhile test start.position start.rest).2 := rfl

def Advances (reader : Reader α) : Prop :=
  ∀ cursor, match reader cursor with
    | .ok _ later | .error _ later => cursor.Reaches later

namespace Advances

theorem pure (result : α) : (Pure.pure result : Reader α).Advances :=
  .refl

theorem throw (failure : Error) : (MonadExcept.throw failure : Reader α).Advances :=
  .refl

theorem get : (MonadState.get : Reader Cursor).Advances :=
  .refl

theorem bind {reader : Reader α} {next : α → Reader β} (first : reader.Advances)
    (rest : ∀ result, (next result).Advances) : (reader >>= next).Advances := by
  intro cursor
  have one := first cursor
  change match EStateM.bind reader next cursor with | .ok .. => _ | .error .. => _
  unfold EStateM.bind
  cases ran : reader cursor with
  | ok result place =>
    rw [ran] at one
    have two := rest result place
    simp only
    cases ends : next result place with
    | ok _ later | error _ later =>
      rw [ends] at two
      exact one.trans two
  | error failure place =>
    rw [ran] at one
    exact one

theorem peek : Reader.peek.Advances :=
  .bind .get fun _ => .pure _

theorem advance : Reader.advance.Advances :=
  Cursor.reaches_next

theorem takeWhile (test : Char → Bool) : (Reader.takeWhile test).Advances :=
  fun cursor => Cursor.reaches_takeWhile test cursor.position cursor.rest

theorem skipPast (mark : Char) : (Reader.skipPast mark).Advances :=
  fun cursor => Cursor.reaches_skipPast mark cursor.position cursor.rest

theorem readText (reader : Reader α) (text : String) : (reader.readText text).Advances := by
  unfold Reader.readText
  split
  · exact .pure _
  · exact .throw _

theorem length_le {reader : Reader α} (advances : reader.Advances) {cursor later : Cursor}
    {result : α} (ran : reader cursor = .ok result later) :
    later.rest.length ≤ cursor.rest.length := by
  have reaches := advances cursor
  rw [ran] at reaches
  exact reaches.length_le

end Advances
end Reader

def expect (table : SymbolTable) (mark : Char) (failure : Nat → Error) : Reader Unit := do
  if (← Reader.peek) = some mark then Reader.advance
  else if table.robust then Reader.skipPast mark
  else throw (failure (← get).position)

theorem insideParens_eq (table : SymbolTable) (arena : Arena) (deeper : Bool → Reader Target) :
    insideParens table arena deeper = (do
      Reader.advance
      let target ← deeper true
      if target.node.isNone || target.attr.isNone then return .absent
      expect table ')' .unclosedParen
      return target.value arena) := by
  unfold insideParens expect
  congr 1
  funext _
  congr 1
  funext target
  rw [bind_assoc]
  congr 2
  funext next
  by_cases closed : next = some ')'
  · rw [if_pos closed, if_pos closed]
  · rw [if_neg closed, if_neg closed]
    by_cases mends : table.robust = true
    · rw [if_pos mends, if_pos mends]
    · rw [if_neg mends, if_neg mends]
      rfl

section Grammar

variable (table : SymbolTable) (arena : Arena) {deeper : Bool → Reader Target}
  (advances : ∀ nested, (deeper nested).Advances)

theorem advances_badIndex (position : Nat) : (badIndex table position).Advances := by
  unfold badIndex
  split
  · exact .pure _
  · exact .throw _

theorem advances_indexOfValue (value : Value) (position : Nat) :
    (indexOfValue table value position).Advances := by
  unfold indexOfValue
  split
  · split
    · exact .pure _
    · exact advances_badIndex table position
  · exact advances_badIndex table position

theorem advances_expect (mark : Char) (failure : Nat → Error) :
    (expect table mark failure).Advances := by
  unfold expect
  refine .bind .peek fun next => ?_
  split
  · exact .advance
  · split
    · exact .skipPast _
    · exact .bind .get fun _ => .throw _

theorem advances_closeBracket : (closeBracket table).Advances :=
  advances_expect table ']' .unclosedIndex

include advances

theorem advances_insideParens : (insideParens table arena deeper).Advances := by
  rw [insideParens_eq]
  refine .bind .advance fun _ => .bind (advances true) fun target => ?_
  split
  · exact .pure _
  · exact .bind (advances_expect table ')' .unclosedParen) fun _ => .pure _

theorem advances_identifier : (identifier table arena deeper).Advances := by
  unfold identifier
  refine .bind .peek fun next => ?_
  split
  · exact .pure _
  · refine .bind .advance fun _ => .bind .peek fun next => ?_
    split
    · exact .bind (advances_insideParens table arena advances) fun _ => .pure _
    · exact .pure _
  · split
    · exact .bind (.takeWhile _) fun _ => .pure _
    · exact .bind .advance fun _ => .pure _

theorem advances_indexValue : (indexValue table arena deeper).Advances := by
  unfold indexValue
  refine .bind .get fun place => .bind .peek fun next => ?_
  split
  · split
    · refine .bind (.takeWhile _) fun digits => ?_
      simp only
      split
      · exact .pure _
      · exact advances_badIndex table _
    · split
      · exact .bind .advance fun _ => .bind (advances true) fun _ =>
          advances_indexOfValue table _ _
      · split
        · exact .bind (advances true) fun _ => advances_indexOfValue table _ _
        · exact advances_badIndex table _
  · exact advances_badIndex table _

theorem advances_indices (rounds : List Char) (current : Option NodeId) :
    (indices table arena deeper rounds current).Advances := by
  induction rounds generalizing current with
  | nil => exact .pure _
  | cons _ rounds induction =>
    unfold indices
    refine .bind .peek fun next => ?_
    split
    · refine .bind .advance fun _ => .bind (advances_indexValue table arena advances) fun index =>
        .bind (advances_closeBracket table) fun _ => ?_
      split
      · exact induction _
      · exact induction _
    · exact .pure _

theorem advances_primary : (primary table arena deeper).Advances := by
  unfold primary
  refine .bind (advances_identifier table arena advances) fun key => ?_
  split
  · exact .pure _
  · exact .bind .get fun place => advances_indices table arena advances _ _

theorem advances_attrPart : (attrPart table arena deeper).Advances := by
  unfold attrPart
  refine .bind .peek fun next => ?_
  split
  · refine .bind .advance fun _ => .bind (advances_identifier table arena advances) fun name => ?_
    split
    · exact .pure _
    · exact .pure _
  · exact .pure _

theorem advances_pathOver (nested : Bool) : (pathOver table arena deeper nested).Advances := by
  unfold pathOver
  refine .bind .get fun place => ?_
  split
  · exact .pure _
  · split
    · exact .bind .advance fun _ => .bind (advances nested) fun _ => .readText _ _
    · refine .bind (advances_primary table arena advances) fun node =>
        .bind (advances_attrPart table arena advances) fun attr => .bind .get fun place => ?_
      split
      · exact .throw _
      · exact .pure _

omit advances

theorem advances_below (levels : Nat) (nested : Bool) :
    (below table arena levels nested).Advances := by
  induction levels generalizing nested with
  | zero => exact .throw _
  | succ levels induction => exact advances_pathOver table arena induction nested

end Grammar

/-! ## Where indices lead -/

def closedIndex (table : SymbolTable) (arena : Arena) (deeper : Bool → Reader Target) :
    Reader (Option Nat) := do
  let index ← indexValue table arena deeper
  closeBracket table
  return index

section Indices

variable {table : SymbolTable} {arena : Arena} {deeper : Bool → Reader Target} {rounds : List Char}

theorem closedIndex_eq_ok_iff {start closed : Cursor} {index : Option Nat} :
    closedIndex table arena deeper start = .ok index closed ↔
      ∃ indexed, indexValue table arena deeper start = .ok index indexed ∧
        closeBracket table indexed = .ok () closed := by
  constructor
  · intro ran
    rcases bind_eq_ok_iff.mp ran with ⟨_, indexed, read, ran⟩
    rcases bind_eq_ok_iff.mp ran with ⟨_, _, ended, same⟩
    cases same
    exact ⟨indexed, read, ended⟩
  · rintro ⟨indexed, read, ended⟩
    exact (bind_of_ok read).trans (bind_of_ok ended)

theorem indices_of_no_bracket {current : Option NodeId} {cursor : Cursor}
    (other : cursor.rest.head? ≠ some '[') :
    indices table arena deeper rounds current cursor = .ok current cursor := by
  cases rounds with
  | nil => rfl
  | cons _ rounds =>
    unfold indices
    exact bind_eq_ok_iff.mpr ⟨_, cursor, rfl, by rw [if_neg other]; rfl⟩

theorem indices_cons_eq {round : Char} {current : Option NodeId} {start : Cursor}
    (bracket : start.rest.head? = some '[') :
    indices table arena deeper (round :: rounds) current start =
      (closedIndex table arena deeper >>= fun index => indices table arena deeper rounds
        (current.bind fun parent => index.bind (arena.child? parent))) start.next := by
  have peeked : Reader.peek start = .ok (some '[') start := by
    rw [← bracket]
    rfl
  have advanced : Reader.advance start = .ok () start.next := rfl
  conv_lhs => unfold indices
  refine (bind_of_ok peeked).trans ?_
  rw [if_pos rfl]
  refine (bind_of_ok advanced).trans ?_
  unfold closedIndex
  simp only [bind_assoc, pure_bind]
  refine bind_congr_of_ok fun index _ _ => bind_congr_of_ok fun _ _ _ => ?_
  cases current <;> cases index <;> rfl

theorem indices_cons_inv {round : Char} {current reached : Option NodeId} {start finish : Cursor}
    (bracket : start.rest.head? = some '[')
    (ran : indices table arena deeper (round :: rounds) current start = .ok reached finish) :
    ∃ index place closed, indexValue table arena deeper start.next = .ok index place ∧
      closeBracket table place = .ok () closed ∧
      indices table arena deeper rounds
          (current.bind fun parent => index.bind (arena.child? parent)) closed =
        .ok reached finish := by
  rw [indices_cons_eq bracket] at ran
  rcases bind_eq_ok_iff.mp ran with ⟨index, closed, read, onward⟩
  rcases closedIndex_eq_ok_iff.mp read with ⟨place, read, ended⟩
  exact ⟨index, place, closed, read, ended, onward⟩

theorem indices_none {reached : Option NodeId} {start finish : Cursor}
    (ran : indices table arena deeper rounds none start = .ok reached finish) : reached = none := by
  induction rounds generalizing start with
  | nil =>
    cases ran
    rfl
  | cons _ rounds induction =>
    by_cases bracket : start.rest.head? = some '['
    · rcases indices_cons_inv bracket ran with ⟨_, _, _, -, -, onward⟩
      exact induction onward
    · rw [indices_of_no_bracket bracket] at ran
      cases ran
      rfl

/-- One index and what follows it lead to a node just if there is a child at the index and the rest
leads there from it. -/
theorem indices_cons_eq_ok_iff {round : Char} {parent node : NodeId} {start finish : Cursor}
    (bracket : start.rest.head? = some '[') :
    indices table arena deeper (round :: rounds) (some parent) start = .ok (some node) finish ↔
      ∃ opened index indexed closed child,
        Reader.advance start = .ok () opened ∧
        indexValue table arena deeper opened = .ok (some index) indexed ∧
        closeBracket table indexed = .ok () closed ∧
        arena.child? parent index = some child ∧
        indices table arena deeper rounds (some child) closed = .ok (some node) finish := by
  constructor
  · intro ran
    rcases indices_cons_inv bracket ran with ⟨index, indexed, closed, read, ended, onward⟩
    cases index with
    | none => cases indices_none onward
    | some index =>
      cases found : arena.child? parent index with
      | none =>
        rw [Option.bind_some, Option.bind_some, found] at onward
        cases indices_none onward
      | some child =>
        rw [Option.bind_some, Option.bind_some, found] at onward
        exact ⟨_, index, indexed, closed, child, rfl, read, ended, found, onward⟩
  · rintro ⟨opened, index, indexed, closed, child, ⟨⟩, read, ended, found, onward⟩
    rw [indices_cons_eq bracket, bind_of_ok (closedIndex_eq_ok_iff.mpr ⟨indexed, read, ended⟩),
      Option.bind_some, Option.bind_some, found, onward]

end Indices
end Path
end RecordGraph
