import RecordGraph.Proofs.Path.Grammar
import RecordGraph.Proofs.Path.Trailing

/-!
# Paths inside paths

A path between parentheses or brackets is read up to the bracket that closes them, or it finds
nothing. This is shown along the derivation of its text: wherever the reader of a part finds
something, it has taken just the text of the part.

At two places a text is not read as it is derived. Digits at the front of an index are always taken
for a number. And a `$` there is always taken for the one in front of a path, so a computed
identifier at the front of an index is none.
-/

namespace RecordGraph.Path

/-! ## Readers that stop where a text ends -/

namespace Reader

/-- Either the reader finds something and takes just the text for it, the same before every tail of
a kind, or it finds nothing before any of them. -/
def Delimits (ends : List Char → Prop) (found : α → Prop) (reader : Reader α) (text : List Char) :
    Prop :=
  (∃ result, found result ∧ ∀ position tail, ends tail →
      ∃ later, reader ⟨position, text ++ tail⟩ = .ok result ⟨later, tail⟩) ∨
    ∀ position tail, ends tail → ∀ result finish,
      reader ⟨position, text ++ tail⟩ = .ok result finish → ¬ found result

namespace Delimits

variable {ends : List Char → Prop} {found : α → Prop} {reader : Reader α} {text : List Char}

theorem never (missing : ∀ start result finish, reader start = .ok result finish → ¬ found result) :
    Delimits ends found reader text :=
  .inr fun _ _ _ => missing _

theorem pure (result : α) : Delimits ends found (Pure.pure result) [] := by
  by_cases holds : found result
  · exact .inl ⟨result, holds, fun position _ _ => ⟨position, rfl⟩⟩
  · refine .never ?_
    rintro _ _ _ ⟨⟩
    exact holds

/-- What the reader does first leads to another reader, and to what is left of the text. -/
theorem of_step {other : Reader α} {rest : List Char} (delimits : Delimits ends found other rest)
    (step : ∀ position tail, ends tail →
      ∃ place, reader ⟨position, text ++ tail⟩ = other ⟨place, rest ++ tail⟩) :
    Delimits ends found reader text := by
  rcases delimits with ⟨result, holds, takes⟩ | misses
  · refine .inl ⟨result, holds, fun position tail ended => ?_⟩
    rcases step position tail ended with ⟨place, same⟩
    rw [same]
    exact takes place tail ended
  · refine .inr fun position tail ended => ?_
    rcases step position tail ended with ⟨place, same⟩
    rw [same]
    exact misses place tail ended

theorem bind {first : Reader β} {next : β → Reader α} {middle : β → Prop}
    {before : List Char → Prop} {front back : List Char}
    (start : Delimits before middle first front)
    (rest : ∀ result, middle result → Delimits ends found (next result) back)
    (joins : ∀ tail, ends tail → before (back ++ tail))
    (needed : ∀ result, ¬ middle result → ∀ place ending later,
      next result place = .ok ending later → ¬ found ending) :
    Delimits ends found (first >>= next) (front ++ back) := by
  rcases start with ⟨result, good, takes⟩ | misses
  · refine (rest result good).of_step fun position tail ended => ?_
    rcases takes position (back ++ tail) (joins tail ended) with ⟨place, ran⟩
    exact ⟨place, by rw [List.append_assoc, bind_of_ok ran]⟩
  · refine .inr fun position tail ended ending later ran => ?_
    rw [List.append_assoc] at ran
    rcases bind_eq_ok_iff.mp ran with ⟨result, place, began, onward⟩
    exact needed result (misses _ _ (joins tail ended) result place began) place ending later onward

theorem andThen {first : Reader β} {next : β → Reader α} {middle : β → Prop}
    {before : List Char → Prop} (start : Delimits before middle first text)
    (rest : ∀ result, middle result → Delimits ends found (next result) [])
    (joins : ∀ tail, ends tail → before tail)
    (needed : ∀ result, ¬ middle result → ∀ place ending later,
      next result place = .ok ending later → ¬ found ending) :
    Delimits ends found (first >>= next) text := by
  have whole : Delimits ends found (first >>= next) (text ++ []) :=
    start.bind rest joins needed
  rwa [List.append_nil] at whole

theorem readText {reader : Reader α} (text : String) :
    Delimits ends found (reader.readText text) [] := by
  unfold Reader.readText
  split
  · exact .pure _
  · exact .never nofun

theorem narrow {before : List Char → Prop} (delimits : Delimits before found reader text)
    (joins : ∀ tail, ends tail → before tail) : Delimits ends found reader text := by
  rcases delimits with ⟨result, holds, takes⟩ | misses
  · exact .inl ⟨result, holds, fun position tail ended => takes position tail (joins tail ended)⟩
  · exact .inr fun position tail ended => misses position tail (joins tail ended)

theorem takes (delimits : Delimits ends found reader text) (ended : ends []) {position : Nat}
    {result : α} {finish : Cursor} (ran : reader ⟨position, text⟩ = .ok result finish)
    (holds : found result) (origin : Nat) {tail : List Char} (closes : ends tail) :
    ∃ later, reader ⟨origin, text ++ tail⟩ = .ok result ⟨later, tail⟩ := by
  rcases delimits with ⟨same, -, takes⟩ | misses
  · rcases takes position [] ended with ⟨_, alone⟩
    rw [List.append_nil] at alone
    cases alone.symm.trans ran
    exact takes origin tail closes
  · exact absurd holds (misses position [] ended result finish (by rwa [List.append_nil]))

end Delimits
end Reader

open Reader (Delimits)

section Grammar

variable {table : SymbolTable} {arena : Arena} {deeper : Bool → Reader Target} {path : List Char}

theorem isNone_iff_not_full {target : Target} :
    (target.node.isNone || target.attr.isNone) = true ↔ ¬ target.Full := by
  rcases target with ⟨_ | node, _ | attr⟩ <;> simp [Target.Full]

theorem value_of_not_full {target : Target} (missing : ¬ target.Full) :
    target.value arena = .absent := by
  by_contra present
  exact missing (Target.full_of_value present)

/-! ## Identifiers -/

theorem delimits_identifier {name : String} (isIdentifier : IsIdentifier name) :
    Delimits (Text.Stops continuesIdentifier) (· ≠ "") (identifier table arena deeper)
      name.toList :=
  .inl ⟨name, isIdentifier.ne_empty, fun _ _ stops => ⟨_, run_identifier isIdentifier stops _⟩⟩

variable {ends : List Char → Prop} (inside : Delimits Closes Target.Full (deeper true) path)

include inside

theorem delimits_insideParens :
    Delimits ends (· ≠ .absent) (insideParens table arena deeper) ('(' :: (path ++ [')'])) := by
  rw [insideParens_eq]
  refine .of_step (.bind inside (fun target full => ?_) (fun tail _ => closes_paren tail)
    fun target missing => ?_) fun position tail _ => ⟨_, bind_of_ok rfl⟩
  · rw [if_neg (isNone_iff_not_full.not.mpr (not_not.mpr full))]
    exact .of_step (.pure _) fun position tail _ => ⟨_, bind_of_ok (bind_of_ok rfl)⟩
  · rw [if_pos (isNone_iff_not_full.mpr missing)]
    rintro _ _ _ ⟨⟩
    exact fun present => present rfl

theorem delimits_computed :
    Delimits ends (· ≠ "") (identifier table arena deeper) ('$' :: '(' :: (path ++ [')'])) := by
  refine .of_step (.andThen (delimits_insideParens inside)
    (fun value _ => .pure (String.ofList (leadingIdentifier value.toText.toList)))
    (fun _ ended => ended) fun value missing => ?_) fun position tail _ => ⟨_, bind_of_ok rfl⟩
  rw [not_not.mp missing]
  rintro _ _ _ ⟨⟩
  exact fun named => named rfl

end Grammar

/-! ## Indices -/

theorem Cursor.skipPast_run {mark : Char} {run : List Char} (absent : mark ∉ run) (position : Nat)
    (rest : List Char) : ∃ later, skipPast mark position (run ++ mark :: rest) = ⟨later, rest⟩ := by
  induction run generalizing position with
  | nil => exact ⟨_, if_pos rfl⟩
  | cons character run induction =>
    rw [List.mem_cons, not_or] at absent
    rcases induction absent.2 (position + character.utf8Size) with ⟨later, skipped⟩
    exact ⟨later, (if_neg (Ne.symm absent.1)).trans skipped⟩

def follow (table : SymbolTable) (arena : Arena) (deeper : Bool → Reader Target)
    (current : Option NodeId) : Reader (Option NodeId) := do
  indices table arena deeper (← get).rest current

section Grammar

variable {table : SymbolTable} {arena : Arena} {deeper : Bool → Reader Target} {path : List Char}

theorem delimits_no_index {text : List Char}
    (missing : ∀ position tail index place,
      indexValue table arena deeper ⟨position, text ++ ']' :: tail⟩ = .ok index place →
        index = none) :
    Delimits (fun _ => True) (·.isSome = true) (closedIndex table arena deeper)
      (text ++ [']']) := by
  refine .inr fun position tail _ index finish ran => ?_
  rw [List.append_assoc] at ran
  rcases closedIndex_eq_ok_iff.mp ran with ⟨place, read, -⟩
  rw [missing position tail index place read]
  exact Bool.false_ne_true

theorem indexOfValue_of_integer {value : Value} {integer : Int64}
    (chosen : indexInteger? value = some integer) (nonnegative : 0 ≤ integer) (origin : Nat)
    (start : Cursor) :
    indexOfValue table value origin start = .ok (some integer.toInt.toNat) start := by
  rw [indexOfValue, chosen]
  simp only [if_pos nonnegative]
  rfl

theorem integer_of_indexOfValue {value : Value} {origin index : Nat} {start finish : Cursor}
    (ran : indexOfValue table value origin start = .ok (some index) finish) :
    ∃ integer, indexInteger? value = some integer ∧ 0 ≤ integer := by
  cases chosen : indexInteger? value with
  | none =>
    rw [indexOfValue, chosen] at ran
    cases badIndex_eq_ok ran
  | some integer =>
    rw [indexOfValue, chosen] at ran
    by_cases nonnegative : 0 ≤ integer
    · exact ⟨integer, rfl, nonnegative⟩
    · simp only [if_neg nonnegative] at ran
      cases badIndex_eq_ok ran

theorem closeBracket_of_robust (mends : table.robust = true) {run : List Char} (absent : ']' ∉ run)
    (position : Nat) (tail : List Char) :
    ∃ later, closeBracket table ⟨position, run ++ ']' :: tail⟩ = .ok () ⟨later, tail⟩ := by
  cases run with
  | nil => exact ⟨_, closeBracket_eq position⟩
  | cons first others =>
    have other : ¬ some first = some ']' := by
      rintro ⟨⟩
      exact absent List.mem_cons_self
    rcases Cursor.skipPast_run absent position tail with ⟨later, skipped⟩
    refine ⟨later, bind_eq_ok_iff.mpr ⟨some first, _, rfl, ?_⟩⟩
    rw [if_neg other, if_pos mends]
    exact congrArg (EStateM.Result.ok ()) skipped

theorem closeBracket_of_strict (strict : table.robust = false) {start finish : Cursor}
    (unclosed : start.rest.head? ≠ some ']') : closeBracket table start ≠ .ok () finish := by
  intro ran
  rcases bind_eq_ok_iff.mp ran with ⟨_, _, ⟨⟩, ran⟩
  rw [if_neg unclosed, if_neg (Bool.eq_false_iff.mp strict)] at ran
  cases ran

/-- An index that is read as a path is the one that the value at the path stands for. -/
theorem delimits_index (inside : Delimits Closes Target.Full (deeper true) path)
    {text : List Char}
    (reads : ∀ position tail, ∃ origin place,
      indexValue table arena deeper ⟨position, text ++ ']' :: tail⟩ =
        (deeper true >>= fun target => indexOfValue table (target.value arena) origin)
          ⟨place, path ++ ']' :: tail⟩) :
    Delimits (fun _ => True) (·.isSome = true) (closedIndex table arena deeper)
      (text ++ [']']) := by
  by_cases found : ∃ target integer, (∀ position tail, Closes tail →
      ∃ later, deeper true ⟨position, path ++ tail⟩ = .ok target ⟨later, tail⟩) ∧
        indexInteger? (target.value arena) = some integer ∧ 0 ≤ integer
  · rcases found with ⟨target, integer, takes, chosen, nonnegative⟩
    refine .inl ⟨some integer.toInt.toNat, rfl, fun position tail _ => ?_⟩
    rcases reads position tail with ⟨origin, place, same⟩
    rcases takes place (']' :: tail) (closes_bracket tail) with ⟨later, ran⟩
    have read : indexValue table arena deeper ⟨position, text ++ ']' :: tail⟩ =
        .ok (some integer.toInt.toNat) ⟨later, ']' :: tail⟩ := by
      rw [same, bind_of_ok ran]
      exact indexOfValue_of_integer chosen nonnegative _ _
    rw [List.append_assoc]
    exact ⟨_, closedIndex_eq_ok_iff.mpr ⟨_, read, closeBracket_eq later⟩⟩
  · refine delimits_no_index fun position tail index place read => ?_
    cases index with
    | none => rfl
    | some index =>
      rcases reads position tail with ⟨origin, before, same⟩
      rw [same] at read
      rcases bind_eq_ok_iff.mp read with ⟨target, behind, began, ended⟩
      rcases integer_of_indexOfValue ended with ⟨integer, chosen, nonnegative⟩
      rcases inside with ⟨_, -, takes⟩ | misses
      · rcases takes before (']' :: tail) (closes_bracket tail) with ⟨later, again⟩
        cases again.symm.trans began
        exact absurd ⟨_, integer, takes, chosen, nonnegative⟩ found
      · have missing := misses before (']' :: tail) (closes_bracket tail) target behind began
        rw [value_of_not_full missing] at chosen
        cases chosen

theorem indexValue_dollar (position : Nat) (rest : List Char) :
    indexValue table arena deeper ⟨position, '$' :: rest⟩ =
      (deeper true >>= fun target => indexOfValue table (target.value arena) position)
        ⟨position + '$'.utf8Size, rest⟩ :=
  (bind_of_ok rfl).trans ((bind_of_ok rfl).trans (bind_of_ok rfl))

theorem delimits_value (inside : Delimits Closes Target.Full (deeper true) path) :
    Delimits (fun _ => True) (·.isSome = true) (closedIndex table arena deeper)
      ('$' :: path ++ [']']) :=
  delimits_index inside fun position _ => ⟨position, _, indexValue_dollar position _⟩

theorem indexValue_letter {first : Char} (begins : beginsIdentifier first = true)
    (noDigit : Text.isDigit first = false) (position : Nat) (rest : List Char) :
    indexValue table arena deeper ⟨position, first :: rest⟩ =
      (deeper true >>= fun target => indexOfValue table (target.value arena) position)
        ⟨position, first :: rest⟩ := by
  have other : first ≠ '$' := by
    rintro rfl
    exact absurd begins (by decide)
  unfold indexValue
  refine (bind_of_ok rfl).trans ((bind_of_ok rfl).trans ?_)
  simp only [noDigit, Bool.false_eq_true, ↓reduceIte, other, begins]

theorem delimits_letter {first : Char} {rest : List Char}
    (inside : Delimits Closes Target.Full (deeper true) (first :: rest))
    (begins : beginsIdentifier first = true) (noDigit : Text.isDigit first = false) :
    Delimits (fun _ => True) (·.isSome = true) (closedIndex table arena deeper)
      (first :: rest ++ [']']) :=
  delimits_index inside fun position _ =>
    ⟨position, position, indexValue_letter begins noDigit position _⟩

/-- Digits at the front of an index are the index. Where paths are mended, the rest of it is passed
over. -/
theorem delimits_digits {digits behind : List Char} (present : digits ≠ [])
    (isDigit : ∀ digit ∈ digits, Text.isDigit digit = true)
    (stops : Text.Stops Text.isDigit behind) (unclosed : behind.head? ≠ some ']')
    (mended : table.robust = true → ']' ∉ behind) :
    Delimits (fun _ => True) (·.isSome = true) (closedIndex table arena deeper)
      (digits ++ behind ++ [']']) := by
  have read (position : Nat) (tail : List Char) := @indexValue_run table arena deeper
    (behind ++ ']' :: tail) digits present isDigit position (by
      cases behind with
      | nil => exact Text.stops_cons.mpr (by decide)
      | cons first others => exact Text.stops_cons.mpr (Text.stops_cons.mp stops))
  have joined (tail : List Char) :
      digits ++ behind ++ [']'] ++ tail = digits ++ (behind ++ ']' :: tail) := by simp
  by_cases small : indexOf digits < indexBound
  · simp only [if_pos small] at read
    by_cases closed : table.robust = true ∨ behind = []
    · refine .inl ⟨some (indexOf digits), rfl, fun position tail _ => ?_⟩
      rw [joined]
      have ended : ∃ later, closeBracket table ⟨position + byteSize digits, behind ++ ']' :: tail⟩ =
          .ok () ⟨later, tail⟩ := by
        rcases closed with mends | rfl
        · exact closeBracket_of_robust mends (mended mends) _ tail
        · exact ⟨_, closeBracket_eq _⟩
      rcases ended with ⟨later, ended⟩
      exact ⟨later, closedIndex_eq_ok_iff.mpr ⟨_, read position tail, ended⟩⟩
    · rw [not_or] at closed
      refine .inr fun position tail _ index finish ran => ?_
      rw [joined] at ran
      rcases closedIndex_eq_ok_iff.mp ran with ⟨place, began, ended⟩
      cases (read position tail).symm.trans began
      refine absurd ended (closeBracket_of_strict (Bool.eq_false_iff.mpr closed.1) ?_)
      obtain ⟨first, others, rfl⟩ := List.exists_cons_of_ne_nil closed.2
      exact unclosed
  · simp only [if_neg small] at read
    refine delimits_no_index fun position tail index place began => ?_
    rw [List.append_assoc, read position tail] at began
    exact badIndex_eq_ok began

/-! ## Indices in a row -/

section

variable (advances : ∀ nested, (deeper nested).Advances)

include advances

theorem advances_closedIndex : (closedIndex table arena deeper).Advances :=
  .bind (advances_indexValue table arena advances) fun _ =>
    .bind (advances_closeBracket table) fun _ => .pure _

theorem indices_enough {rounds more : List Char} {current : Option NodeId} {start : Cursor}
    (enough : start.rest.length ≤ rounds.length) (enoughMore : start.rest.length ≤ more.length) :
    indices table arena deeper rounds current start =
      indices table arena deeper more current start := by
  induction rounds generalizing more current start with
  | nil =>
    have ended : start.rest.head? ≠ some '[' := by
      simp [List.length_eq_zero_iff.mp (Nat.le_zero.mp enough)]
    rw [indices_of_no_bracket ended, indices_of_no_bracket ended]
  | cons round rounds induction =>
    by_cases bracket : start.rest.head? = some '['
    · cases more with
      | nil => simp [List.length_eq_zero_iff.mp (Nat.le_zero.mp enoughMore)] at bracket
      | cons _ more =>
        rw [indices_cons_eq bracket, indices_cons_eq bracket]
        refine bind_congr_of_ok fun index place ran => ?_
        have shorter := (advances_closedIndex advances).length_le ran
        rw [Cursor.next_rest_length] at shorter
        simp only [List.length_cons] at enough enoughMore
        exact induction (by omega) (by omega)
    · rw [indices_of_no_bracket bracket, indices_of_no_bracket bracket]

theorem follow_cons (current : Option NodeId) (position : Nat) (rest : List Char) :
    follow table arena deeper current ⟨position, '[' :: rest⟩ =
      (closedIndex table arena deeper >>= fun index => follow table arena deeper
        (current.bind fun parent => index.bind (arena.child? parent)))
          ⟨position + '['.utf8Size, rest⟩ := by
  have opened := @indices_cons_eq table arena deeper rest '[' current ⟨position, '[' :: rest⟩ rfl
  refine Eq.trans opened (bind_congr_of_ok fun index place ran => ?_)
  exact indices_enough advances ((advances_closedIndex advances).length_le ran) (Nat.le_refl _)

theorem delimits_indexed {index behind : List Char}
    (closed : Delimits (fun _ => True) (·.isSome = true) (closedIndex table arena deeper)
      (index ++ [']']))
    (rest : ∀ current, Delimits (·.head? ≠ some '[') (·.isSome = true)
      (follow table arena deeper current) behind) (current : Option NodeId) :
    Delimits (·.head? ≠ some '[') (·.isSome = true) (follow table arena deeper current)
      ('[' :: (index ++ [']'] ++ behind)) := by
  refine .of_step (.bind closed (fun index _ =>
    rest (current.bind fun parent => index.bind (arena.child? parent))) (fun _ _ => trivial)
    fun index missing place reached finish ran => ?_) fun position tail _ =>
      ⟨position + '['.utf8Size, ?_⟩
  · have nowhere : (current.bind fun parent => index.bind (arena.child? parent)) = none := by
      cases current <;> cases index <;> simp_all
    rw [nowhere] at ran
    have ran : indices table arena deeper place.rest none place = .ok reached finish := ran
    rw [indices_none ran]
    exact Bool.false_ne_true
  · exact follow_cons advances current position _

end

theorem delimits_unindexed (current : Option NodeId) :
    Delimits (·.head? ≠ some '[') (·.isSome = true) (follow table arena deeper current) [] :=
  .of_step (.pure current) fun position _ ended => ⟨position, indices_of_no_bracket ended⟩

/-! ## Attributes -/

theorem delimits_attrPart {text : List Char} (attr : text = [] ∨ ∃ name, text = '.' :: name ∧
      Delimits (Text.Stops continuesIdentifier) (· ≠ "") (identifier table arena deeper) name) :
    Delimits Closes (·.isSome = true) (attrPart table arena deeper) text := by
  rcases attr with rfl | ⟨name, rfl, delimits⟩
  · refine .of_step (.pure (some .value)) fun position tail closes => ⟨position, ?_⟩
    refine bind_eq_ok_iff.mpr ⟨_, _, rfl, ?_⟩
    have other : ¬ tail.head? = some '.' := closes.head_ne (by decide) (by decide)
    simp only [List.nil_append, if_neg other]
    rfl
  · refine .of_step (.andThen delimits (fun name named => ?_) (fun _ => Closes.stops)
      fun name missing => ?_) fun position tail _ => ⟨_, bind_of_ok rfl⟩
    · rw [if_neg named]
      exact .pure _
    · rw [if_pos (not_not.mp missing)]
      rintro _ _ _ ⟨⟩
      exact Bool.false_ne_true

/-! ## Paths -/

theorem pathOver_of_indirect {nested : Bool} {start : Cursor}
    (indirect : beginsIndirection start.rest = true) :
    pathOver table arena deeper nested start =
      (deeper nested >>= fun inner =>
        Reader.readText (deeper nested) (inner.value arena).toText) start.next := by
  have more : ¬ start.rest.isEmpty = true := by
    intro ended
    rw [List.isEmpty_iff.mp ended] at indirect
    cases indirect
  have got : (get : Reader Cursor) start = .ok start start := rfl
  have advanced : Reader.advance start = .ok () start.next := rfl
  unfold pathOver
  refine (bind_of_ok got).trans ?_
  rw [if_neg more, if_pos indirect]
  exact bind_of_ok advanced

theorem pathOver_of_direct {start : Cursor} (more : start.rest ≠ [])
    (direct : beginsIndirection start.rest = false) :
    pathOver table arena deeper true start = (do
      let node ← primary table arena deeper
      let attr ← attrPart table arena deeper
      return Target.mk node attr : Reader Target) start := by
  have some : ¬ start.rest.isEmpty = true := fun ended => more (List.isEmpty_iff.mp ended)
  have got : (get : Reader Cursor) start = .ok start start := rfl
  unfold pathOver
  refine (bind_of_ok got).trans ?_
  rw [if_neg some, if_neg (Bool.eq_false_iff.mp direct)]
  rfl

theorem delimits_primary {name indices : List Char}
    (key : Delimits (Text.Stops continuesIdentifier) (· ≠ "") (identifier table arena deeper) name)
    (followed : ∀ current, Delimits (·.head? ≠ some '[') (·.isSome = true)
      (follow table arena deeper current) indices)
    (joins : ∀ tail, Text.Stops continuesIdentifier tail →
      Text.Stops continuesIdentifier (indices ++ tail)) :
    Delimits (fun tail => tail.head? ≠ some '[' ∧ Text.Stops continuesIdentifier tail)
      (·.isSome = true) (primary table arena deeper) (name ++ indices) := by
  unfold primary
  refine .bind key (fun key named => ?_) (fun tail ended => joins tail ended.2)
    fun key missing => ?_
  · rw [if_neg named]
    exact (followed (table.lookup key)).narrow fun _ ended => ended.1
  · rw [if_pos (not_not.mp missing)]
    rintro _ _ _ ⟨⟩
    exact Bool.false_ne_true

theorem delimits_direct {front attr : List Char} (more : front ≠ [])
    (direct : ∀ tail, beginsIndirection (front ++ tail) = false)
    (reached : Delimits (fun tail => tail.head? ≠ some '[' ∧ Text.Stops continuesIdentifier tail)
      (·.isSome = true) (primary table arena deeper) front)
    (named : Delimits Closes (·.isSome = true) (attrPart table arena deeper) attr)
    (joins : ∀ tail, Closes tail →
      (attr ++ tail).head? ≠ some '[' ∧ Text.Stops continuesIdentifier (attr ++ tail)) :
    Delimits Closes Target.Full (pathOver table arena deeper true) (front ++ attr) := by
  have parts : Delimits Closes Target.Full (do
      let node ← primary table arena deeper
      let attr ← attrPart table arena deeper
      return Target.mk node attr) (front ++ attr) := by
    refine .bind reached (fun node found => .andThen named (fun attr found => .pure _)
      (fun _ ended => ended) ?_) joins ?_
    · rintro attr missing _ _ _ ⟨⟩ full
      exact missing full.2
    · rintro node missing place _ _ ran full
      rcases bind_eq_ok_iff.mp ran with ⟨attr, _, -, ended⟩
      cases ended
      exact missing full.1
  refine parts.of_step fun position tail _ => ⟨position, pathOver_of_direct ?_ ?_⟩
  · simp [more]
  · rw [List.append_assoc]
    exact direct (attr ++ tail)

theorem delimits_indirect (ended : NothingAtEnd (deeper true))
    (inside : Delimits Closes Target.Full (deeper true) path)
    (direct : ∀ tail, (path ++ tail).head? ≠ some '(') :
    Delimits Closes Target.Full (pathOver table arena deeper true) ('$' :: path) := by
  have read : Delimits Closes Target.Full (deeper true >>= fun inner =>
      Reader.readText (deeper true) (inner.value arena).toText) path := by
    refine .andThen inside (fun inner _ => .readText _) (fun _ ended => ended) ?_
    intro inner missing place target finish ran
    rw [value_of_not_full missing] at ran
    rw [ended.readText ran]
    exact Target.not_full_nothing
  exact read.of_step fun position tail _ =>
    ⟨_, pathOver_of_indirect (beginsIndirection_cons (direct tail))⟩

end Grammar

/-! ## Along the derivation of a text -/

variable {table : SymbolTable} {arena : Arena} {text : List Char}

/-- With however many levels left, the reader of the part stops where the text ends, or finds
nothing. Where an index is asked for, a path is read from behind its first `$`. -/
def Part.Delimited (table : SymbolTable) (arena : Arena) : Part → List Char → Prop
  | .path, text =>
    (∀ levels, Delimits Closes Target.Full (below table arena levels true) text) ∧
      (beginsIndirection text = true →
        ∀ levels, Delimits Closes Target.Full (below table arena levels true) text.tail)
  | .name, text => ∀ levels, Delimits (Text.Stops continuesIdentifier) (· ≠ "")
      (identifier table arena (below table arena levels)) text
  | .indices, text => ∀ levels current, Delimits (·.head? ≠ some '[') (·.isSome = true)
      (follow table arena (below table arena levels) current) text
  | .index, text => ∀ levels, Delimits (fun _ => True) (·.isSome = true)
      (closedIndex table arena (below table arena levels)) (text ++ [']'])
  | .attr, text => ∀ levels, Delimits Closes (·.isSome = true)
      (attrPart table arena (below table arena levels)) text

theorem delimits_below
    (step : ∀ levels,
      Delimits Closes Target.Full (pathOver table arena (below table arena levels) true) text)
    (levels : Nat) : Delimits Closes Target.Full (below table arena levels true) text := by
  cases levels with
  | zero => exact .never nofun
  | succ levels => exact step levels

/-- A parenthesis at the front of a path is taken as a character that begins no identifier. -/
theorem no_node_of_paren {levels position : Nat} {rest : List Char} {target : Target}
    {finish : Cursor}
    (ran : below table arena levels true ⟨position, '(' :: rest⟩ = .ok target finish) :
    target.node = none := by
  cases levels with
  | zero => cases ran
  | succ levels =>
    have direct :
        pathOver table arena (below table arena levels) true ⟨position, '(' :: rest⟩ = _ :=
      pathOver_of_direct nofun rfl
    rw [below, direct] at ran
    rcases bind_eq_ok_iff.mp ran with ⟨node, place, ⟨⟩, ran⟩
    rcases bind_eq_ok_iff.mp ran with ⟨attr, _, -, ⟨⟩⟩
    rfl

theorem delimited_bare (derives : Derives table.robust .path text)
    (delimited : Part.Delimited table arena .path text)
    (mended : table.robust = true → text.head?.any Text.isDigit = true → ']' ∉ text) :
    Part.Delimited table arena .index text := by
  intro levels
  rcases derives.path_cases with ⟨inner, rfl, target⟩ | ⟨rest, rfl⟩ | ⟨first, rest, rfl, begins⟩
  · have indirect : beginsIndirection ('$' :: inner) = true := by
      have front := @Derives.no_paren table.robust inner [] target
      rw [List.append_nil] at front
      exact beginsIndirection_cons front
    exact delimits_value (delimited.2 indirect levels)
  · refine delimits_no_index fun position tail index place read => ?_
    rcases bind_eq_ok_iff.mp ((indexValue_dollar position _).symm.trans read) with
      ⟨target, _, began, ended⟩
    have missing : ¬ target.Full := fun full => by
      simp [Target.Full, no_node_of_paren began] at full
    rw [value_of_not_full missing] at ended
    exact indexOfValue_absent ended
  · cases digit : Text.isDigit first with
    | false => exact delimits_letter (delimited.1 levels) begins digit
    | true =>
      have head : (first :: rest).head?.any Text.isDigit = true := digit
      have present : (first :: rest).takeWhile Text.isDigit ≠ [] := by
        simp [digit]
      have split := @delimits_digits table arena (below table arena levels) _ _ present
        (fun _ => List.mem_takeWhile_imp) (Text.stops_dropWhile _ _) (derives.head_dropWhile head)
        fun mends inside => mended mends head ((List.dropWhile_sublist _).mem inside)
      rw [List.takeWhile_append_dropWhile] at split
      exact split

/-- The texts of the grammar are read to where they end, wherever something is found. -/
theorem delimited_of_derives {part : Part} (derives : Derives table.robust part text) :
    part.Delimited table arena text := by
  induction derives with
  | indirect inner delimited =>
    refine ⟨delimits_below fun levels => ?_, fun _ => delimited.1⟩
    exact delimits_indirect (nothingAtEnd_below levels true) (delimited.1 levels) fun tail =>
      inner.no_paren
  | @direct name indices attr key behind last named followed ended =>
    refine ⟨delimits_below fun levels => ?_, fun indirect => ?_⟩
    · have reached := delimits_primary (named levels) (followed levels) behind.stops_behind
      rw [← List.append_assoc]
      refine delimits_direct (fun empty => ?_) (fun tail => ?_) reached (ended levels)
        last.ends_behind
      · exact key.ne_nil_of_name (List.append_eq_nil_iff.mp empty).1
      · rw [List.append_assoc]
        exact key.direct_of_name
    · rw [key.direct_of_name] at indirect
      cases indirect
  | identifier isIdentifier => exact fun _ => delimits_identifier isIdentifier
  | computed _ delimited => exact fun levels => delimits_computed (delimited.1 levels)
  | unindexed => exact fun _ => delimits_unindexed
  | indexed _ _ closed rest =>
    exact fun levels => delimits_indexed (advances_below table arena levels) (closed levels)
      (rest levels)
  | literal present isDigit =>
    intro levels
    have alone := @delimits_digits table arena (below table arena levels) _ [] present isDigit
      Text.stops_nil nofun fun _ => List.not_mem_nil
    rwa [List.append_nil] at alone
  | value _ delimited => exact fun levels => delimits_value (delimited.1 levels)
  | bare inner mended delimited => exact delimited_bare inner delimited mended
  | plain => exact fun _ => delimits_attrPart (.inl rfl)
  | named _ delimited => exact fun levels => delimits_attrPart (.inr ⟨_, rfl, delimited levels⟩)

end RecordGraph.Path
