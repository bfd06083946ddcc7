import RecordGraph.SymbolTable.Access
import RecordGraph.Proofs.Path.Cursor

/-!
# Lenient tables

One table is more lenient than another with the same bindings if it mends malformed paths where the
other refuses them, or lets paths nest deeper. Where the stricter table has a target, the more
lenient one has the same. The two runs stay at the same places of the text: they part only where
the stricter one fails.
-/

namespace RecordGraph

namespace Path

namespace Reader

def Refines (first second : Reader α) : Prop :=
  ∀ cursor result later, first cursor = .ok result later → second cursor = .ok result later

namespace Refines

theorem refl (reader : Reader α) : Refines reader reader :=
  fun _ _ _ ran => ran

theorem throw (failure : Error) (reader : Reader α) :
    Refines (MonadExcept.throw failure) reader :=
  nofun

theorem bind {first second : Reader α} {next later : α → Reader β} (start : Refines first second)
    (rest : ∀ result, Refines (next result) (later result)) :
    Refines (first >>= next) (second >>= later) := by
  intro cursor result finish ran
  rcases bind_eq_ok_iff.mp ran with ⟨middle, place, began, ended⟩
  exact bind_eq_ok_iff.mpr
    ⟨middle, place, start _ _ _ began, rest middle place result finish ended⟩

theorem readText {first second : Reader α} (refines : Refines first second) (text : String) :
    Refines (first.readText text) (second.readText text) := by
  unfold Reader.readText
  cases ran : first.run (Cursor.ofText text) with
  | error failure place => exact throw failure _
  | ok result place =>
    have same : second.run (Cursor.ofText text) = .ok result place := refines _ _ _ ran
    rw [same]
    exact refl _

end Refines
end Reader

open Reader (Refines)

structure MoreLenient (strict lenient : SymbolTable) : Prop where
  bindings : lenient.bindings = strict.bindings
  robust : strict.robust = true → lenient.robust = true
  limit : strict.limit.max ≤ lenient.limit.max

def admitsTrailing (table : SymbolTable) (nested : Bool) : Bool :=
  nested || table.robust

theorem not_admitsTrailing (table : SymbolTable) (nested : Bool) :
    (!nested && !table.robust) = !admitsTrailing table nested :=
  (Bool.not_or ..).symm

section Grammar

variable {strict lenient : SymbolTable} (more : MoreLenient strict lenient) (arena : Arena)
  {below above : Bool → Reader Target} (deeper : ∀ {nested exempt},
    (admitsTrailing strict nested = true → admitsTrailing lenient exempt = true) →
      Refines (below nested) (above exempt))

include more

theorem MoreLenient.lookup (key : String) : lenient.lookup key = strict.lookup key := by
  rw [SymbolTable.lookup, SymbolTable.lookup, more.bindings]

theorem refines_mend {mended failing : Reader α} (fails : ∀ other, Refines failing other) :
    Refines (if strict.robust then mended else failing)
      (if lenient.robust then mended else failing) := by
  by_cases robust : strict.robust = true
  · rw [if_pos robust, if_pos (more.robust robust)]
    exact .refl mended
  · rw [if_neg robust]
    exact fails _

theorem refines_badIndex (position : Nat) :
    Refines (badIndex strict position) (badIndex lenient position) :=
  refines_mend more fun other => .throw _ other

theorem refines_indexOfValue (value : Value) (position : Nat) :
    Refines (indexOfValue strict value position) (indexOfValue lenient value position) := by
  unfold indexOfValue
  split
  · split
    · exact .refl _
    · exact refines_badIndex more position
  · exact refines_badIndex more position

theorem refines_expect (mark : Char) (failure : Nat → Error) :
    Refines (expect strict mark failure) (expect lenient mark failure) := by
  unfold expect
  refine .bind (.refl _) fun next => ?_
  split
  · exact .refl _
  · exact refines_mend more fun other => nofun

theorem refines_closeBracket : Refines (closeBracket strict) (closeBracket lenient) :=
  refines_expect more ']' .unclosedIndex

include deeper

theorem refines_insideParens :
    Refines (insideParens strict arena below) (insideParens lenient arena above) := by
  rw [insideParens_eq, insideParens_eq]
  refine .bind (.refl _) fun _ => .bind (deeper fun _ => rfl) fun target => ?_
  split
  · exact .refl _
  · exact .bind (refines_expect more ')' .unclosedParen) fun _ => .refl _

theorem refines_identifier :
    Refines (identifier strict arena below) (identifier lenient arena above) := by
  unfold identifier
  refine .bind (.refl _) fun next => ?_
  split
  · exact .refl _
  · refine .bind (.refl _) fun _ => .bind (.refl _) fun next => ?_
    split
    · exact .bind (refines_insideParens more arena deeper) fun _ => .refl _
    · exact .refl _
  · exact .refl _

theorem refines_indexValue :
    Refines (indexValue strict arena below) (indexValue lenient arena above) := by
  unfold indexValue
  refine .bind (.refl _) fun place => .bind (.refl _) fun next => ?_
  have valued : Refines (do
      let target ← below true
      indexOfValue strict (target.value arena) place.position) (do
      let target ← above true
      indexOfValue lenient (target.value arena) place.position) :=
    .bind (deeper fun _ => rfl) fun target => refines_indexOfValue more _ _
  split
  · split
    · refine .bind (.refl _) fun digits => ?_
      simp only
      split
      · exact .refl _
      · exact refines_badIndex more _
    · split
      · exact .bind (.refl _) fun _ => valued
      · split
        · exact valued
        · exact refines_badIndex more _
  · exact refines_badIndex more _

theorem refines_indices (rounds : List Char) (current : Option NodeId) :
    Refines (indices strict arena below rounds current)
      (indices lenient arena above rounds current) := by
  induction rounds generalizing current with
  | nil => exact .refl _
  | cons _ rounds induction =>
    unfold indices
    refine .bind (.refl _) fun next => ?_
    split
    · refine .bind (.refl _) fun _ => .bind (refines_indexValue more arena deeper) fun index =>
        .bind (refines_closeBracket more) fun _ => ?_
      split
      · exact induction _
      · exact induction _
    · exact .refl _

theorem refines_primary : Refines (primary strict arena below) (primary lenient arena above) := by
  unfold primary
  refine .bind (refines_identifier more arena deeper) fun key => ?_
  split
  · exact .refl _
  · refine .bind (.refl _) fun place => ?_
    rw [more.lookup]
    exact refines_indices more arena deeper _ _

theorem refines_attrPart :
    Refines (attrPart strict arena below) (attrPart lenient arena above) := by
  unfold attrPart
  refine .bind (.refl _) fun next => ?_
  split
  · exact .bind (.refl _) fun _ => .bind (refines_identifier more arena deeper) fun _ => .refl _
  · exact .refl _

theorem refines_pathOver {nested exempt : Bool}
    (admits : admitsTrailing strict nested = true → admitsTrailing lenient exempt = true) :
    Refines (pathOver strict arena below nested) (pathOver lenient arena above exempt) := by
  unfold pathOver
  refine .bind (.refl _) fun place => ?_
  split
  · exact .refl _
  · split
    · exact .bind (.refl _) fun _ => .bind (deeper admits) fun inner =>
        .readText (deeper admits) _
    · refine .bind (refines_primary more arena deeper) fun node =>
        .bind (refines_attrPart more arena deeper) fun attr => .bind (.refl _) fun place => ?_
      rw [not_admitsTrailing, not_admitsTrailing]
      -- where the more lenient table refuses text after the path, so does the stricter one
      cases ended : place.rest.isEmpty with
      | true => simpa using .refl _
      | false =>
        cases admitted : admitsTrailing strict nested with
        | true => simpa [admits admitted] using .refl _
        | false => exact .throw _ _

omit deeper

theorem refines_below {levels levelsAbove : Nat} (deep : levels ≤ levelsAbove)
    {nested exempt : Bool}
    (admits : admitsTrailing strict nested = true → admitsTrailing lenient exempt = true) :
    Refines (Path.below strict arena levels nested)
      (Path.below lenient arena levelsAbove exempt) := by
  induction levels generalizing levelsAbove nested exempt with
  | zero => exact .throw _ _
  | succ levels induction =>
    cases levelsAbove with
    | zero => exact absurd deep (Nat.not_succ_le_zero levels)
    | succ levelsAbove =>
      exact refines_pathOver more arena (induction (Nat.le_of_succ_le_succ deep)) admits

theorem refines_inner {nested exempt : Bool}
    (admits : admitsTrailing strict nested = true → admitsTrailing lenient exempt = true) :
    Refines (inner strict arena nested) (inner lenient arena exempt) :=
  refines_below more arena more.limit admits

theorem refines_path {nested exempt : Bool}
    (admits : admitsTrailing strict nested = true → admitsTrailing lenient exempt = true) :
    Refines (path strict arena nested) (path lenient arena exempt) :=
  refines_pathOver more arena (refines_inner more arena) admits

theorem resolve_of_resolve {text : String} {target : Target}
    (resolved : resolve strict arena text = .ok target) :
    resolve lenient arena text = .ok target := by
  have admits : admitsTrailing strict false = true → admitsTrailing lenient false = true := by
    simpa [admitsTrailing] using more.robust
  have refines := refines_path more arena admits
  unfold resolve at resolved ⊢
  cases ran : (path strict arena false).run (Cursor.ofText text) with
  | error failure place =>
    rw [ran] at resolved
    cases resolved
  | ok found place =>
    have same : (path lenient arena false).run (Cursor.ofText text) = .ok found place :=
      refines _ _ _ ran
    rw [ran] at resolved
    rw [same]
    exact resolved

end Grammar
end Path

namespace SymbolTable

open RecordGraph.Path (Target Cursor MoreLenient)

variable {strict lenient : SymbolTable} (more : MoreLenient strict lenient) {arena : Arena}
  {text : String}

include more

theorem resolve_of_resolve (present : strict.resolve arena text ≠ .nothing) :
    lenient.resolve arena text = strict.resolve arena text := by
  unfold resolve at present ⊢
  cases resolved : Path.resolve strict arena text with
  | error failure =>
    rw [resolved] at present
    exact absurd rfl present
  | ok target => rw [Path.resolve_of_resolve more arena resolved]

theorem get_of_get {node : NodeId} (found : strict.get arena text = some node) :
    lenient.get arena text = some node := by
  have present : strict.resolve arena text ≠ .nothing := by
    intro nothing
    rw [get, nothing] at found
    cases found
  rwa [get, resolve_of_resolve more present]

theorem query_of_query (present : strict.query arena text ≠ .absent) :
    lenient.query arena text = strict.query arena text := by
  have resolved : strict.resolve arena text ≠ .nothing := by
    intro nothing
    rw [query, nothing] at present
    exact present rfl
  rw [query, resolve_of_resolve more resolved, ← query]

theorem find_of_find {node : NodeId} (found : strict.find arena text = some node) :
    lenient.find arena text = some node := by
  have refines := Path.refines_primary more arena (Path.refines_inner more arena)
  unfold find primaryAt at found ⊢
  cases ran : (Path.primary strict arena (Path.inner strict arena)).run (Cursor.ofText text) with
  | error failure place =>
    rw [ran] at found
    cases found
  | ok reached place =>
    have same : (Path.primary lenient arena (Path.inner lenient arena)).run (Cursor.ofText text) =
      .ok reached place := refines _ _ _ ran
    rw [ran] at found
    rw [same]
    exact found

omit more

def inMode (table : SymbolTable) (robust : Bool) : SymbolTable :=
  { table with robust }

theorem moreLenient_inMode (table : SymbolTable) :
    MoreLenient (table.inMode false) (table.inMode true) :=
  ⟨rfl, fun _ => rfl, Nat.le_refl _⟩

/-- Mending can only turn nothing into something. Wherever a path has a target that refuses
malformed paths, at any place of a text and at any nesting, mending gives the same target and stops
at the same place; so every node and every value that is found stays the same. -/
theorem robust_extends_strict (table : SymbolTable) (arena : Arena) (text : String) :
    (∀ nested cursor target later,
      Path.path (table.inMode false) arena nested cursor = .ok target later →
        Path.path (table.inMode true) arena nested cursor = .ok target later) ∧
    (∀ target, Path.resolve (table.inMode false) arena text = .ok target →
      Path.resolve (table.inMode true) arena text = .ok target) ∧
    ((table.inMode false).resolve arena text ≠ .nothing →
      (table.inMode true).resolve arena text = (table.inMode false).resolve arena text) ∧
    (∀ node, (table.inMode false).get arena text = some node →
      (table.inMode true).get arena text = some node) ∧
    (∀ node, (table.inMode false).find arena text = some node →
      (table.inMode true).find arena text = some node) ∧
    ((table.inMode false).query arena text ≠ .absent →
      (table.inMode true).query arena text = (table.inMode false).query arena text) := by
  have more := moreLenient_inMode table
  refine ⟨fun nested => Path.refines_path more arena fun _ => Bool.or_true _,
    fun target => Path.resolve_of_resolve more arena, resolve_of_resolve more,
    fun node => get_of_get more, fun node => find_of_find more, query_of_query more⟩

def signpost : SymbolTable × Arena :=
  let arena := (Arena.empty.allocKind "x" .string).2
  let arena := (arena.allocKind "y" .int).2
  let arena := arena.setAttr ⟨0, 0⟩ "" (.text "y")
  let arena := arena.setAttr ⟨1, 0⟩ "" (.int 7)
  let (table, arena) := (empty "main").define arena "x" ⟨0, 0⟩
  table.define arena "y" ⟨1, 0⟩

/-- An indirection through a computed identifier. -/
theorem robust_extends_strict_signpost :
    (signpost.1.inMode false).query signpost.2 "$(x)" = .int 7 ∧
      (signpost.1.inMode true).query signpost.2 "$(x)" = .int 7 := by
  have value : (signpost.1.inMode false).query signpost.2 "$(x)" = .int 7 := by decide +kernel
  have extends_strict := robust_extends_strict signpost.1 signpost.2 "$(x)"
  refine ⟨value, ?_⟩
  rw [extends_strict.2.2.2.2.2 (by rw [value]; nofun), value]

end SymbolTable
end RecordGraph
