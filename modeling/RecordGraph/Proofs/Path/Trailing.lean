import RecordGraph.Proofs.Path.Leniency
import RecordGraph.Proofs.Path.Persistence

/-!
# Text behind a path

Text behind a path that cannot go on with it is refused where paths are not mended, however many
indirections the path begins with. Where paths are mended such text makes no difference.
-/

namespace RecordGraph

namespace Path

section Refusal

variable {table : SymbolTable} (unmended : table.robust = false) {arena : Arena}
  {below : Bool → Reader Target}

def RefusesRest (below : Bool → Reader Target) : Prop :=
  ∀ {cursor target later}, below true cursor = .ok target later → later.rest ≠ [] →
    ∀ result place, below false cursor ≠ .ok result place

theorem rest_readText {reader : Reader α} {text : String} {start finish : Cursor} {result : α}
    (ran : reader.readText text start = .ok result finish) : finish = start := by
  unfold Reader.readText at ran
  cases again : reader.run (Cursor.ofText text) with
  | ok result place =>
    rw [again] at ran
    cases ran
    rfl
  | error failure place =>
    rw [again] at ran
    cases ran

include unmended

theorem refusesRest_pathOver (refuses : RefusesRest below) :
    RefusesRest (pathOver table arena below) := by
  intro cursor target later exempt more result place checked
  unfold pathOver at exempt checked
  rcases bind_eq_ok_iff.mp exempt with ⟨_, _, ⟨⟩, exempt⟩
  rcases bind_eq_ok_iff.mp checked with ⟨_, _, ⟨⟩, checked⟩
  split at exempt
  · cases exempt
    rename_i ended
    exact more (List.isEmpty_iff.mp ended)
  · rename_i going
    rw [if_neg going] at checked
    split at exempt
    · rename_i indirect
      rw [if_pos indirect] at checked
      rcases bind_eq_ok_iff.mp exempt with ⟨_, _, ⟨⟩, exempt⟩
      rcases bind_eq_ok_iff.mp checked with ⟨_, _, ⟨⟩, checked⟩
      rcases bind_eq_ok_iff.mp exempt with ⟨inner, left, began, exempt⟩
      rcases bind_eq_ok_iff.mp checked with ⟨innerChecked, leftChecked, beganChecked, -⟩
      rw [rest_readText exempt] at more
      exact refuses began more _ _ beganChecked
    · rename_i direct
      rw [if_neg direct] at checked
      rcases bind_eq_ok_iff.mp exempt with ⟨node, left, reached, exempt⟩
      rcases bind_eq_ok_iff.mp checked with ⟨_, _, reachedChecked, checked⟩
      cases reached.symm.trans reachedChecked
      rcases bind_eq_ok_iff.mp exempt with ⟨attr, left, named, exempt⟩
      rcases bind_eq_ok_iff.mp checked with ⟨_, _, namedChecked, checked⟩
      cases named.symm.trans namedChecked
      rcases bind_eq_ok_iff.mp exempt with ⟨_, _, ⟨⟩, exempt⟩
      rcases bind_eq_ok_iff.mp checked with ⟨_, _, ⟨⟩, checked⟩
      cases exempt
      simp [unmended, more] at checked
      cases checked

theorem refusesRest_below (levels : Nat) : RefusesRest (Path.below table arena levels) := by
  induction levels with
  | zero => nofun
  | succ levels induction => exact refusesRest_pathOver unmended induction

theorem refusesRest_path : RefusesRest (path table arena) :=
  refusesRest_pathOver unmended (refusesRest_below unmended _)

end Refusal

theorem Cursor.ofText_append (text more : String) :
    Cursor.ofText (text ++ more) = (Cursor.ofText text).followedBy more.toList := by
  rw [ofText, ofText, followedBy, String.toList_append]

theorem MoreLenient.refl (table : SymbolTable) : MoreLenient table table :=
  ⟨rfl, id, Nat.le_refl _⟩

theorem Richer.refl (table : SymbolTable) (arena : Arena) : Richer table arena table arena :=
  ⟨rfl, rfl, id, .refl arena⟩

section Tail

variable {table : SymbolTable} (unmended : table.robust = false) {arena : Arena} {text : String}
  {target : Target} (resolved : resolve table arena text = .ok target) (full : target.Full)
  {more : String} (detached : Detached table more.toList)

include resolved full detached

theorem path_append : ∃ place : Cursor, path table arena true (Cursor.ofText (text ++ more)) =
    .ok target (place.followedBy more.toList) := by
  unfold resolve at resolved
  cases ran : (path table arena false).run (Cursor.ofText text) with
  | error failure place =>
    rw [ran] at resolved
    cases resolved
  | ok found place =>
    rw [ran] at resolved
    cases resolved
    have exempt : path table arena true (Cursor.ofText text) = .ok target place :=
      refines_path (.refl table) arena (fun _ => rfl) _ _ _ ran
    rw [Cursor.ofText_append]
    exact ⟨place, persistsAt_path (.refl table arena) detached (.inl rfl) _ _ exempt full⟩

include unmended in
theorem resolve_append_error (someText : more.toList ≠ []) :
    ∃ failure, resolve table arena (text ++ more) = .error failure := by
  rcases path_append resolved full detached with ⟨place, ran⟩
  have rest : (place.followedBy more.toList).rest ≠ [] := by
    simpa [Cursor.followedBy] using fun _ => someText
  unfold resolve
  cases checked : (path table arena false).run (Cursor.ofText (text ++ more)) with
  | error failure place => exact ⟨failure, rfl⟩
  | ok found place => exact absurd checked (refusesRest_path unmended ran rest _ _)

theorem resolve_append_of_robust {lenient : SymbolTable} (lenientMore : MoreLenient table lenient)
    (mends : lenient.robust = true) : resolve lenient arena (text ++ more) = .ok target := by
  rcases path_append resolved full detached with ⟨place, ran⟩
  have admits : admitsTrailing lenient false = true := by rw [admitsTrailing, mends, Bool.or_true]
  have same : (path lenient arena false).run (Cursor.ofText (text ++ more)) =
      .ok target (place.followedBy more.toList) :=
    refines_path lenientMore arena (fun _ => admits) _ _ _ ran
  rw [resolve, same]

end Tail

end Path

namespace SymbolTable

/-- Text that begins with a character that cannot go on with a path makes a path with a value
meaningless where malformed paths are refused, and makes no difference where they are mended. -/
theorem query_append (table : SymbolTable) (arena : Arena) (path more : String) (first : Char)
    (present : (table.inMode false).query arena path ≠ .absent)
    (head : more.toList.head? = some first) (noLetterOrDigit : first.isAlphanum = false)
    (others : first ∉ ['-', '_', '[', '.']) :
    (table.inMode false).query arena (path ++ more) = .absent ∧
      (table.inMode false).get arena (path ++ more) = none ∧
      (table.inMode true).query arena (path ++ more) = (table.inMode true).query arena path ∧
      (table.inMode true).query arena path = (table.inMode false).query arena path := by
  have lenient := query_of_query (moreLenient_inMode table) present
  unfold query resolve at present
  cases resolved : Path.resolve (table.inMode false) arena path with
  | error failure =>
    rw [resolved] at present
    exact absurd rfl present
  | ok target =>
    rw [resolved] at present
    have full := Path.Target.full_of_value present
    simp only [List.mem_cons, List.not_mem_nil, or_false, not_or] at others
    have detached : Path.Detached (table.inMode false) more.toList := by
      refine ⟨fun character same => ?_, ?_, ?_, nofun⟩
      · cases head.symm.trans same
        simp [Path.continuesIdentifier, noLetterOrDigit, others]
      · rw [head]
        simp [others]
      · rw [head]
        simp [others]
    have someText : more.toList ≠ [] := fun none => by simp [none] at head
    rcases Path.resolve_append_error rfl resolved full detached someText with ⟨failure, refused⟩
    have found := Path.resolve_append_of_robust resolved full detached (moreLenient_inMode table) rfl
    refine ⟨by rw [query, resolve, refused]; rfl, by rw [get, resolve, refused]; rfl, ?_, lenient⟩
    rw [lenient, query, query, resolve, resolve, found, resolved]

/-- A computed identifier, and a closing parenthesis too many. -/
theorem query_append_signpost :
    (signpost.1.inMode false).query signpost.2 "$(x)" ≠ .absent ∧
      (signpost.1.inMode false).query signpost.2 ("$(x)" ++ ") more") = .absent ∧
      (signpost.1.inMode true).query signpost.2 ("$(x)" ++ ") more") = .int 7 := by
  have value : (signpost.1.inMode false).query signpost.2 "$(x)" = .int 7 := by decide +kernel
  have present : (signpost.1.inMode false).query signpost.2 "$(x)" ≠ .absent := by
    rw [value]
    nofun
  have appended := query_append signpost.1 signpost.2 "$(x)" ") more" ')' present (by decide)
    (by decide) (by decide)
  exact ⟨present, appended.1, appended.2.2.1.trans (appended.2.2.2.trans value)⟩

end SymbolTable
end RecordGraph
