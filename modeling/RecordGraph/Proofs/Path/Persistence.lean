import RecordGraph.Proofs.Arena.Enrichment
import RecordGraph.Proofs.Path.Cursor
import RecordGraph.Proofs.Text.Runs

/-!
# Readings persist

What a path means does not change when bindings, children, attribute values and names are added, nor
when text follows that cannot go on with the path. This holds of readings that find something. One
that finds nothing may find something later: a key that was free may be bound by then.

So each lemma says what counts as finding something, and the readers inside a path find something
wherever the path does.
-/

namespace RecordGraph

namespace Path

def Cursor.followedBy (cursor : Cursor) (tail : List Char) : Cursor :=
  ⟨cursor.position, cursor.rest ++ tail⟩

@[simp] theorem Cursor.followedBy_nil (cursor : Cursor) : cursor.followedBy [] = cursor := by
  rw [followedBy, List.append_nil]

theorem Cursor.takeWhile_append {test : Char → Bool} {tail : List Char}
    (stops : Text.Stops test tail) (position : Nat) (rest : List Char) :
    takeWhile test position (rest ++ tail) =
      ((takeWhile test position rest).1, (takeWhile test position rest).2.followedBy tail) := by
  induction rest generalizing position with
  | nil =>
    cases tail with
    | nil => rfl
    | cons character tail => simp [takeWhile, followedBy, Text.stops_cons.mp stops]
  | cons character rest induction =>
    by_cases passes : test character
    · simp [takeWhile, passes, induction]
    · simp [takeWhile, passes, followedBy]

namespace Target

def Full (target : Target) : Prop :=
  target.node.isSome = true ∧ target.attr.isSome = true

theorem not_full_nothing : ¬ Target.nothing.Full := nofun

theorem full_of_value {target : Target} {arena : Arena} (present : target.value arena ≠ .absent) :
    target.Full := by
  rcases target with ⟨_ | node, _ | attr⟩
  · exact absurd rfl present
  · exact absurd rfl present
  · exact absurd rfl present
  · exact ⟨rfl, rfl⟩

theorem value_enriched {target : Target} {arena later : Arena} (enriched : arena.Enriched later)
    (present : target.value arena ≠ .absent) : target.value later = target.value arena := by
  rcases target with ⟨_ | node, _ | attr⟩
  · rfl
  · rfl
  · rfl
  · change (arena.attrById? node attr).getD .absent ≠ .absent at present
    change (later.attrById? node attr).getD .absent = (arena.attrById? node attr).getD .absent
    cases found : arena.attrById? node attr with
    | none => simp [found] at present
    | some value => rw [enriched.attr found]

end Target

namespace Reader

/-- If the first reader finds something at a place, the second one finds the same there when the
tail follows, and stops before the tail. -/
def PersistsAt (tail : List Char) (found : α → Prop) (first second : Reader α) (cursor : Cursor) :
    Prop :=
  ∀ result later, first cursor = .ok result later → found result →
    second (cursor.followedBy tail) = .ok result (later.followedBy tail)

namespace PersistsAt

variable {tail : List Char} {cursor : Cursor} {found : α → Prop} {first second : Reader α}

theorem pure (result : α) :
    PersistsAt tail found (Pure.pure result) (Pure.pure result) cursor := by
  rintro _ _ ⟨⟩ _
  rfl

theorem of_not_found (never : ∀ result later, first cursor = .ok result later → ¬ found result) :
    PersistsAt tail found first second cursor :=
  fun result later ran holds => absurd holds (never result later ran)

theorem throw (failure : Error) :
    PersistsAt tail found (MonadExcept.throw failure) second cursor :=
  of_not_found nofun

theorem mono {weaker : α → Prop} (persists : PersistsAt tail weaker first second cursor)
    (weaken : ∀ result, found result → weaker result) :
    PersistsAt tail found first second cursor :=
  fun result later ran holds => persists result later ran (weaken result holds)

theorem valued {first second : Reader Target} (arena : Arena)
    (persists : PersistsAt tail Target.Full first second cursor) :
    PersistsAt tail (fun target => target.value arena ≠ .absent) first second cursor :=
  persists.mono fun _ => Target.full_of_value

theorem bind {middle : β → Prop} {first second : Reader β} {next onward : β → Reader α}
    (start : PersistsAt tail middle first second cursor)
    (rest : ∀ result place, first cursor = .ok result place → middle result →
      PersistsAt tail found (next result) (onward result) place)
    (needed : ∀ result place, ¬ middle result →
      ∀ ending later, next result place = .ok ending later → ¬ found ending) :
    PersistsAt tail found (first >>= next) (second >>= onward) cursor := by
  intro ending later ran holds
  rcases bind_eq_ok_iff.mp ran with ⟨result, place, began, ended⟩
  by_cases good : middle result
  · exact bind_eq_ok_iff.mpr ⟨result, place.followedBy tail, start result place began good,
      rest result place began good ending later ended holds⟩
  · exact absurd holds (needed result place good ending later ended)

theorem andThen {first second : Reader β} {next onward : β → Reader α}
    (start : PersistsAt tail (fun _ => True) first second cursor)
    (rest : ∀ result place, first cursor = .ok result place →
      PersistsAt tail found (next result) (onward result) place) :
    PersistsAt tail found (first >>= next) (second >>= onward) cursor :=
  start.bind (fun result place began _ => rest result place began)
    fun _ _ missing => absurd trivial missing

theorem get {next onward : Cursor → Reader α}
    (rest : PersistsAt tail found (next cursor) (onward (cursor.followedBy tail)) cursor) :
    PersistsAt tail found (MonadState.get >>= next) (MonadState.get >>= onward) cursor :=
  rest

theorem peek {next onward : Option Char → Reader α}
    (ended : cursor.rest = [] →
      PersistsAt tail found (next none) (onward tail.head?) cursor)
    (going : ∀ character, cursor.rest.head? = some character →
      PersistsAt tail found (next (some character)) (onward (some character)) cursor) :
    PersistsAt tail found (Reader.peek >>= next) (Reader.peek >>= onward) cursor := by
  rcases cursor with ⟨position, _ | ⟨character, rest⟩⟩
  · exact ended rfl
  · exact going character rfl

theorem advance {character : Char} {found : Unit → Prop}
    (more : cursor.rest.head? = some character) :
    PersistsAt tail found Reader.advance Reader.advance cursor := by
  rcases cursor with ⟨position, _ | ⟨character, rest⟩⟩
  · cases more
  · rintro _ _ ⟨⟩ _
    rfl

theorem takeWhile {test : Char → Bool} {found : List Char → Prop}
    (stops : Text.Stops test tail) :
    PersistsAt tail found (Reader.takeWhile test) (Reader.takeWhile test) cursor := by
  rintro _ _ ⟨⟩ _
  have taken := Cursor.takeWhile_append stops cursor.position cursor.rest
  change EStateM.Result.ok (Cursor.takeWhile test cursor.position (cursor.rest ++ tail)).1
    (Cursor.takeWhile test cursor.position (cursor.rest ++ tail)).2 = _
  rw [taken]

theorem refl (ends : tail = []) (reader : Reader α) :
    PersistsAt tail found reader reader cursor := by
  subst ends
  intro result later ran _
  rw [Cursor.followedBy_nil, Cursor.followedBy_nil, ran]

theorem readText {text : String}
    (persists : PersistsAt [] found first second (Cursor.ofText text)) :
    PersistsAt tail found (first.readText text) (second.readText text) cursor := by
  unfold Reader.readText
  cases ran : first.run (Cursor.ofText text) with
  | error failure place => exact throw failure
  | ok result place =>
    by_cases holds : found result
    · have same := persists result place ran holds
      rw [Cursor.followedBy_nil, Cursor.followedBy_nil] at same
      have same : second.run (Cursor.ofText text) = .ok result place := same
      rw [same]
      exact pure result
    · refine of_not_found ?_
      rintro _ _ ⟨⟩
      exact holds

end PersistsAt
end Reader

open Reader (PersistsAt)

structure Richer (table : SymbolTable) (arena : Arena) (later : SymbolTable) (grown : Arena) :
    Prop where
  robust : later.robust = table.robust
  limit : later.limit = table.limit
  lookup : ∀ {key node}, table.lookup key = some node → later.lookup key = some node
  arena : arena.Enriched grown

structure Detached (table : SymbolTable) (tail : List Char) : Prop where
  identifier : Text.Stops continuesIdentifier tail
  bracket : tail.head? ≠ some '['
  point : tail.head? ≠ some '.'
  unmended : table.robust = true → tail = []

theorem Detached.nil (table : SymbolTable) : Detached table [] :=
  ⟨Text.stops_nil, nofun, nofun, fun _ => rfl⟩

theorem Detached.digits {table : SymbolTable} {tail : List Char} (detached : Detached table tail) :
    Text.Stops Text.isDigit tail := by
  intro character first
  have other := detached.identifier character first
  rw [continuesIdentifier, Bool.or_eq_false_iff, Bool.or_eq_false_iff] at other
  have alphanumeric : (character.isAlpha || Text.isDigit character) = false := other.1.1
  exact (Bool.or_eq_false_iff.mp alphanumeric).2

section Grammar

variable {table later : SymbolTable} {arena grown : Arena}
  (richer : Richer table arena later grown) {below above : Bool → Reader Target}
  (deeper : ∀ {tail nested cursor}, Detached table tail → (nested = true ∨ tail = []) →
    PersistsAt tail Target.Full (below nested) (above nested) cursor)
  {tail : List Char} (detached : Detached table tail) {cursor : Cursor}

theorem badIndex_eq_ok {position : Nat} {start finish : Cursor} {index : Option Nat}
    (ran : badIndex table position start = .ok index finish) : index = none := by
  unfold badIndex at ran
  split at ran <;> cases ran
  rfl

theorem indexOfValue_absent {position : Nat} {start finish : Cursor} {index : Option Nat}
    (ran : indexOfValue table .absent position start = .ok index finish) : index = none :=
  badIndex_eq_ok ran

theorem persistsAt_badIndex (position : Nat) (second : Reader (Option Nat)) :
    PersistsAt tail (·.isSome = true) (badIndex table position) second cursor :=
  .of_not_found fun _ _ ran => by simp [badIndex_eq_ok ran]

theorem persistsAt_indexOfValue (value : Value) (position : Nat) :
    PersistsAt tail (·.isSome = true) (indexOfValue table value position)
      (indexOfValue later value position) cursor := by
  unfold indexOfValue
  split
  · split
    · exact .pure _
    · exact persistsAt_badIndex position _
  · exact persistsAt_badIndex position _

include richer

theorem persistsAt_indexOfTarget {target : Target} (present : target.value arena ≠ .absent)
    (position : Nat) :
    PersistsAt tail (·.isSome = true) (indexOfValue table (target.value arena) position)
      (indexOfValue later (target.value grown) position) cursor := by
  rw [Target.value_enriched richer.arena present]
  exact persistsAt_indexOfValue _ position

include detached

theorem persistsAt_expect (mark : Char) (failure : Nat → Error) :
    PersistsAt tail (fun _ => True) (expect table mark failure) (expect later mark failure)
      cursor := by
  unfold expect
  rw [richer.robust]
  refine .peek (fun _ => ?_) fun character more => ?_
  · cases mends : table.robust with
    | true =>
      have ends := detached.unmended mends
      subst ends
      exact .refl rfl _
    | false => exact .of_not_found nofun
  · split
    · exact .advance more
    · split
      · rename_i mends
        exact .refl (detached.unmended mends) _
      · exact .of_not_found nofun

include deeper

theorem persistsAt_insideParens {character : Char} (more : cursor.rest.head? = some character) :
    PersistsAt tail (· ≠ .absent) (insideParens table arena below) (insideParens later grown above)
      cursor := by
  rw [insideParens_eq, insideParens_eq]
  refine .andThen (.advance more) fun _ place _ => ?_
  refine .bind ((deeper detached (.inl rfl)).valued arena) (fun target _ _ present => ?_)
    fun target place missing ending last ran => ?_
  · rw [Target.value_enriched richer.arena present]
    split
    · exact .pure _
    · exact .andThen (persistsAt_expect richer detached _ _) fun _ _ _ => .pure _
  · rw [Classical.not_not.mp missing] at ran
    split at ran
    · cases ran
      exact Classical.not_not.mpr rfl
    · rcases bind_eq_ok_iff.mp ran with ⟨_, _, _, ended⟩
      cases ended
      exact Classical.not_not.mpr rfl

theorem persistsAt_identifier :
    PersistsAt tail (· ≠ "") (identifier table arena below) (identifier later grown above)
      cursor := by
  unfold identifier
  refine .peek (fun _ => .of_not_found ?_) fun character more => ?_
  · rintro _ _ ⟨⟩
    exact Classical.not_not.mpr rfl
  · split
    · rename_i ended
      cases ended
    · refine .andThen (.advance more) fun _ place _ => .peek (fun _ => .of_not_found ?_)
        fun second next => ?_
      · rintro _ _ ⟨⟩
        exact Classical.not_not.mpr rfl
      · split
        · refine .bind (persistsAt_insideParens richer deeper detached next)
            (fun value _ _ _ => .pure _) fun value _ missing _ _ ran => ?_
          rw [Classical.not_not.mp missing] at ran
          cases ran
          exact Classical.not_not.mpr rfl
        · exact .pure _
    · split
      · exact .andThen (.takeWhile detached.identifier) fun _ _ _ => .pure _
      · exact .andThen (.advance more) fun _ _ _ => .pure _

theorem persistsAt_indexValue :
    PersistsAt tail (·.isSome = true) (indexValue table arena below)
      (indexValue later grown above) cursor := by
  unfold indexValue
  have valued (position : Nat) (place : Cursor) : PersistsAt tail (·.isSome = true) (do
      let target ← below true
      indexOfValue table (target.value arena) position) (do
      let target ← above true
      indexOfValue later (target.value grown) position) place := by
    refine .bind ((deeper detached (.inl rfl)).valued arena)
      (fun target _ _ present => persistsAt_indexOfTarget richer present position)
      fun target place missing index last ran => ?_
    rw [Classical.not_not.mp missing] at ran
    simp [indexOfValue_absent ran]
  refine .get (.peek (fun _ => persistsAt_badIndex _ _) fun character more => ?_)
  split
  · rename_i same
    cases same
    split
    · refine .andThen (.takeWhile detached.digits) fun digits _ _ => ?_
      simp only
      split
      · exact .pure _
      · exact persistsAt_badIndex _ _
    · split
      · exact .andThen (.advance more) fun _ _ _ => valued _ _
      · split
        · exact valued _ _
        · exact persistsAt_badIndex _ _
  · exact persistsAt_badIndex _ _

variable (advances : ∀ nested, (below nested).Advances)

include advances

theorem persistsAt_indices {rounds more : List Char} {current : Option NodeId}
    (enough : cursor.rest.length ≤ rounds.length)
    (enoughMore : cursor.rest.length + tail.length ≤ more.length) :
    PersistsAt tail (·.isSome = true) (indices table arena below rounds current)
      (indices later grown above more current) cursor := by
  induction rounds generalizing more current cursor with
  | nil =>
    have ended : cursor.rest = [] := List.eq_nil_of_length_eq_zero (Nat.le_zero.mp enough)
    rintro _ _ ⟨⟩ _
    apply indices_of_no_bracket
    simpa [Cursor.followedBy, ended] using detached.bracket
  | cons _ rounds induction =>
    -- once there is no node, no index that follows brings one back
    have never (reached : Option NodeId) (start finish : Cursor)
        (ran : indices table arena below rounds none start = .ok reached finish) :
        ¬ reached.isSome = true := by
      simp [indices_none ran]
    rcases cursor with ⟨position, _ | ⟨character, rest⟩⟩
    · rintro _ _ ⟨⟩ _
      apply indices_of_no_bracket
      exact detached.bracket
    · cases more with
      | nil =>
        simp only [List.length_cons, List.length_nil] at enoughMore
        omega
      | cons _ more =>
        unfold indices
        refine .peek (fun ended => absurd ended (List.cons_ne_nil _ _)) fun second head => ?_
        split
        · refine .andThen (.advance head) fun _ opened began => ?_
          cases began
          refine .bind (persistsAt_indexValue richer deeper detached)
            (fun index indexed read present => ?_) fun index place missing reached last ran => ?_
          · refine .andThen (persistsAt_expect richer detached _ _) fun _ closed ended => ?_
            have shorter : closed.rest.length ≤ rest.length :=
              Nat.le_trans ((advances_expect table _ _).length_le ended)
                ((advances_indexValue table arena advances).length_le read)
            simp only [List.length_cons] at enough enoughMore
            cases current with
            | none => exact .of_not_found fun reached last => never reached closed last
            | some node =>
              rcases Option.isSome_iff_exists.mp present with ⟨index, rfl⟩
              simp only
              cases found : arena.child? node index with
              | none => exact .of_not_found fun reached last => never reached closed last
              | some child =>
                rw [richer.arena.child found]
                exact induction (by omega) (by omega)
          · rw [Option.not_isSome_iff_eq_none.mp missing] at ran
            rcases bind_eq_ok_iff.mp ran with ⟨_, closed, -, ran⟩
            cases current with
            | none | some _ => exact never reached closed last ran
        · exact .pure _

theorem persistsAt_primary :
    PersistsAt tail (·.isSome = true) (primary table arena below) (primary later grown above)
      cursor := by
  unfold primary
  refine .bind (persistsAt_identifier richer deeper detached) (fun key place _ named => ?_)
    fun key place missing reached last ran => ?_
  · rw [if_neg named, if_neg named]
    refine .get ?_
    cases bound : table.lookup key with
    | none => exact .of_not_found fun reached last ran => by simp [indices_none ran]
    | some node =>
      rw [richer.lookup bound]
      exact persistsAt_indices richer deeper detached advances (Nat.le_refl _)
        (Nat.le_of_eq (List.length_append ..).symm)
  · rw [if_pos (Classical.not_not.mp missing)] at ran
    cases ran
    nofun

omit advances

theorem persistsAt_attrPart :
    PersistsAt tail (·.isSome = true) (attrPart table arena below) (attrPart later grown above)
      cursor := by
  unfold attrPart
  refine .peek (fun _ => ?_) fun character head => ?_
  · rw [if_neg nofun, if_neg detached.point]
    exact .pure _
  · split
    · refine .andThen (.advance head) fun _ place _ =>
        .bind (persistsAt_identifier richer deeper detached) (fun name place _ named => ?_)
          fun name place missing attr last ran => ?_
      · rw [if_neg named, if_neg named]
        cases known : arena.names.query name with
        | none =>
          refine .of_not_found ?_
          rintro _ _ ⟨⟩
          nofun
        | some attr =>
          rw [richer.arena.name known]
          exact .pure _
      · rw [if_pos (Classical.not_not.mp missing)] at ran
        cases ran
        nofun
    · exact .pure _

def NothingAtEnd (reader : Reader Target) : Prop :=
  ∀ position target later, reader ⟨position, []⟩ = .ok target later → target = .nothing

omit richer deeper detached in
theorem NothingAtEnd.readText {reader : Reader Target} (ended : NothingAtEnd reader)
    {start finish : Cursor} {target : Target}
    (ran : reader.readText "" start = .ok target finish) : target = .nothing := by
  unfold Reader.readText at ran
  cases again : reader.run (Cursor.ofText "") with
  | ok result place =>
    rw [again] at ran
    cases ran
    exact ended _ _ _ again
  | error failure place =>
    rw [again] at ran
    cases ran

omit richer deeper detached in
theorem nothingAtEnd_pathOver (nested : Bool) :
    NothingAtEnd (pathOver table arena below nested) := by
  rintro position _ _ ⟨⟩
  rfl

omit richer deeper detached in
theorem not_full_of_lone_indirection (ended : ∀ nested, NothingAtEnd (below nested))
    {nested : Bool} (lone : cursor.rest = ['$']) {target : Target} {finish : Cursor}
    (ran : pathOver table arena below nested cursor = .ok target finish) : ¬ target.Full := by
  rcases cursor with ⟨position, rest⟩
  cases lone
  unfold pathOver at ran
  rcases bind_eq_ok_iff.mp ran with ⟨_, _, ⟨⟩, ran⟩
  rcases bind_eq_ok_iff.mp ran with ⟨_, _, ⟨⟩, ran⟩
  rcases bind_eq_ok_iff.mp ran with ⟨inner, place, began, ran⟩
  cases ended _ _ _ _ began
  rw [(ended nested).readText ran]
  exact Target.not_full_nothing

omit richer deeper detached in
theorem beginsIndirection_append {rest : List Char} (more : rest ≠ []) (notLone : rest ≠ ['$']) :
    beginsIndirection (rest ++ tail) = beginsIndirection rest := by
  match rest with
  | [first] =>
    have other : first ≠ '$' := fun same => notLone (by rw [same])
    cases tail <;> simp [beginsIndirection, other]
  | first :: second :: rest =>
    by_cases indirect : first = '$'
    · rw [indirect]
      rfl
    · simp [beginsIndirection, indirect]

include advances

theorem persistsAt_pathOver (ended : ∀ nested, NothingAtEnd (below nested)) {nested : Bool}
    (exempt : nested = true ∨ tail = []) :
    PersistsAt tail Target.Full (pathOver table arena below nested)
      (pathOver later grown above nested) cursor := by
  -- by itself a last `$` is read as a primary, but with text behind it as an indirection
  by_cases lone : cursor.rest = ['$']
  · exact .of_not_found fun _ _ => not_full_of_lone_indirection ended lone
  unfold pathOver
  refine .get ?_
  cases atEnd : cursor.rest.isEmpty with
  | true =>
    refine .of_not_found ?_
    rintro _ _ ⟨⟩
    exact Target.not_full_nothing
  | false =>
    have more : cursor.rest ≠ [] := by simpa using atEnd
    have moreBehind : (cursor.followedBy tail).rest.isEmpty = false := by
      simp [Cursor.followedBy, more]
    rw [moreBehind, Cursor.followedBy, beginsIndirection_append more lone]
    simp only [Bool.false_eq_true, ↓reduceIte]
    split
    · rcases List.exists_cons_of_ne_nil more with ⟨first, rest, head⟩
      refine .andThen (.advance (by rw [head]; rfl)) fun _ place _ => ?_
      refine .bind ((deeper detached exempt).valued arena) (fun inner _ _ present => ?_)
        fun inner place missing target last ran => ?_
      · rw [Target.value_enriched richer.arena present]
        exact .readText (deeper (.nil table) (.inr rfl))
      · rw [Classical.not_not.mp missing] at ran
        rw [(ended nested).readText ran]
        exact Target.not_full_nothing
    · refine .bind (persistsAt_primary richer deeper detached advances)
        (fun node place _ present => ?_) fun node place missing target last ran => ?_
      · refine .bind (persistsAt_attrPart richer deeper detached)
          (fun attr place _ named => ?_) fun attr place missing target last ran => ?_
        · refine .get ?_
          -- a nested path accepts what stands behind it; behind an outermost one nothing was added
          have noThrow : (!nested && !later.robust && !(place.followedBy tail).rest.isEmpty) =
              (!nested && !table.robust && !place.rest.isEmpty) := by
            rw [richer.robust]
            rcases exempt with rfl | rfl
            · rfl
            · rw [Cursor.followedBy_nil]
          rw [noThrow]
          split
          · exact .throw _
          · exact .pure _
        · rw [Option.not_isSome_iff_eq_none.mp missing] at ran
          rcases bind_eq_ok_iff.mp ran with ⟨_, _, ⟨⟩, ran⟩
          split at ran
          · cases ran
          · cases ran
            exact fun full => absurd full.2 nofun
      · rcases bind_eq_ok_iff.mp ran with ⟨attr, _, -, ran⟩
        rcases bind_eq_ok_iff.mp ran with ⟨_, _, ⟨⟩, ran⟩
        rw [Option.not_isSome_iff_eq_none.mp missing] at ran
        split at ran
        · cases ran
        · cases ran
          exact fun full => absurd full.1 nofun

end Grammar

variable {table later : SymbolTable} {arena grown : Arena}
  (richer : Richer table arena later grown)

theorem nothingAtEnd_below (levels : Nat) (nested : Bool) :
    NothingAtEnd (below table arena levels nested) := by
  cases levels with
  | zero => nofun
  | succ levels => exact nothingAtEnd_pathOver nested

include richer

theorem persistsAt_below (levels : Nat) {tail : List Char} {nested : Bool} {cursor : Cursor}
    (detached : Detached table tail) (exempt : nested = true ∨ tail = []) :
    PersistsAt tail Target.Full (below table arena levels nested)
      (below later grown levels nested) cursor := by
  induction levels generalizing tail nested cursor with
  | zero => exact .throw _
  | succ levels induction =>
    exact persistsAt_pathOver richer induction detached (advances_below table arena levels)
      (nothingAtEnd_below levels) exempt

theorem persistsAt_inner {tail : List Char} {nested : Bool} {cursor : Cursor}
    (detached : Detached table tail) (exempt : nested = true ∨ tail = []) :
    PersistsAt tail Target.Full (inner table arena nested) (inner later grown nested) cursor := by
  unfold inner
  rw [richer.limit]
  exact persistsAt_below richer _ detached exempt

/-- A path with a target has the same target in a richer state and before a tail that cannot go on
with it. -/
theorem persistsAt_path {tail : List Char} {nested : Bool} {cursor : Cursor}
    (detached : Detached table tail) (exempt : nested = true ∨ tail = []) :
    PersistsAt tail Target.Full (path table arena nested) (path later grown nested) cursor :=
  persistsAt_pathOver richer (persistsAt_inner richer) detached
    (advances_below table arena table.limit.max) (nothingAtEnd_below table.limit.max) exempt

end Path
end RecordGraph
