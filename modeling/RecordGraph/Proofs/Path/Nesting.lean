import RecordGraph.Proofs.Path.Cursor

/-!
# How deep paths nest

A path is read by readings of paths one level further inside, finitely many of them. Taken together
they are a tree, in which no limit has a part. A limit on the levels cuts off the paths whose trees
are higher, and every other path is read just as it would be without a limit.
-/

namespace RecordGraph.Path

def Error.IsTooDeep : Error → Prop
  | tooDeep _ => True
  | _ => False

/-! ## Paths that are consulted -/

/-- A path inside another one: whether it is exempt from the check for text after it, and where it
begins. -/
abbrev Inside := Bool × Cursor

structure Consults (reader : (Bool → Reader Target) → Reader α) (readings : Bool → Reader Target)
    (start : Cursor) (consulted : List Inside) : Prop where
  only : ∀ other : Bool → Reader Target,
    (∀ inside ∈ consulted, other inside.1 inside.2 = readings inside.1 inside.2) →
      reader other start = reader readings start
  noticed : ∀ inside ∈ consulted, ∀ failure place,
    readings inside.1 inside.2 = .error failure place →
      ∃ later, reader readings start = .error failure later
  blamed : ∀ failure later, reader readings start = .error failure later → failure.IsTooDeep →
    ∃ inside ∈ consulted, ∃ place, readings inside.1 inside.2 = .error failure place

def Finitary (reader : (Bool → Reader Target) → Reader α) : Prop :=
  ∀ readings start, ∃ consulted, Consults reader readings start consulted

def Reader.Shallow (reader : Reader α) : Prop :=
  ∀ start failure later, reader start = .error failure later → ¬ failure.IsTooDeep

namespace Reader.Shallow

theorem pure (result : α) : (Pure.pure result : Reader α).Shallow := nofun

theorem get : (MonadState.get : Reader Cursor).Shallow := nofun

theorem peek : Reader.peek.Shallow := nofun

theorem advance : Reader.advance.Shallow := nofun

theorem takeWhile (test : Char → Bool) : (Reader.takeWhile test).Shallow := nofun

theorem skipPast (mark : Char) : (Reader.skipPast mark).Shallow := nofun

theorem throw {failure : Error} (other : ¬ failure.IsTooDeep) :
    (MonadExcept.throw failure : Reader α).Shallow := by
  rintro start _ later ⟨⟩
  exact other

theorem bind {reader : Reader α} {next : α → Reader β} (first : reader.Shallow)
    (rest : ∀ result, (next result).Shallow) : (reader >>= next).Shallow := by
  intro start failure later ran
  cases began : reader start with
  | ok result place =>
    rw [bind_of_ok began] at ran
    exact rest result place failure later ran
  | error cause place =>
    rw [bind_of_error began] at ran
    cases ran
    exact first start failure later began

end Reader.Shallow

namespace Finitary

open Reader (Shallow)

variable {reader : (Bool → Reader Target) → Reader α}

theorem of_shallow {reader : Reader α} (shallow : reader.Shallow) : Finitary fun _ => reader :=
  fun _ start => ⟨[], fun _ _ => rfl, nofun, fun failure later ran deep =>
    absurd deep (shallow start failure later ran)⟩

theorem inside (exempt : Bool) : Finitary fun readings => readings exempt := by
  refine fun readings start => ⟨[(exempt, start)], fun other same => ?_, ?_, ?_⟩
  · exact same _ (List.mem_singleton_self _)
  · intro inside member failure place ran
    cases List.mem_singleton.mp member
    exact ⟨place, ran⟩
  · exact fun failure later ran _ => ⟨_, List.mem_singleton_self _, later, ran⟩

theorem readText (exempt : Bool) (text : String) :
    Finitary fun readings => (readings exempt).readText text := by
  refine fun readings start => ⟨[(exempt, .ofText text)], fun other same => ?_, ?_, ?_⟩
  · have again : (other exempt).run (.ofText text) = (readings exempt).run (.ofText text) :=
      same _ (List.mem_singleton_self _)
    simp only [Reader.readText, again]
  · intro inside member failure place ran
    cases List.mem_singleton.mp member
    have ran : (readings exempt).run (.ofText text) = .error failure place := ran
    simp only [Reader.readText, ran]
    exact ⟨start, rfl⟩
  · intro failure later ran _
    unfold Reader.readText at ran
    refine ⟨_, List.mem_singleton_self _, ?_⟩
    cases read : (readings exempt).run (.ofText text) with
    | ok target place =>
      rw [read] at ran
      cases ran
    | error cause place =>
      rw [read] at ran
      cases ran
      exact ⟨place, read⟩

theorem bind {next : α → (Bool → Reader Target) → Reader β} (first : Finitary reader)
    (rest : ∀ result, Finitary (next result)) :
    Finitary fun readings => reader readings >>= fun result => next result readings := by
  intro readings start
  rcases first readings start with ⟨before, consults⟩
  cases began : reader readings start with
  | error cause place =>
    refine ⟨before, fun other same => ?_, ?_, ?_⟩
    · rw [bind_of_error began, bind_of_error ((consults.only other same).trans began)]
    · intro inside member failure place ran
      rcases consults.noticed inside member failure place ran with ⟨later, failed⟩
      cases began.symm.trans failed
      exact ⟨_, bind_of_error began⟩
    · intro failure later ran deep
      rw [bind_of_error began] at ran
      cases ran
      exact consults.blamed _ _ began deep
  | ok result place =>
    rcases rest result readings place with ⟨after, consultsAfter⟩
    refine ⟨before ++ after, fun other same => ?_, ?_, ?_⟩
    · have again := (consults.only other fun inside member =>
        same inside (List.mem_append_left _ member)).trans began
      rw [bind_of_ok began, bind_of_ok again]
      exact consultsAfter.only other fun inside member =>
        same inside (List.mem_append_right _ member)
    · intro inside member failure place ran
      rw [bind_of_ok began]
      rcases List.mem_append.mp member with early | late
      · -- a failure of the first step would have been noticed
        rcases consults.noticed inside early failure place ran with ⟨later, failed⟩
        cases began.symm.trans failed
      · exact consultsAfter.noticed inside late failure place ran
    · intro failure later ran deep
      rw [bind_of_ok began] at ran
      rcases consultsAfter.blamed failure later ran deep with ⟨inside, member, blame⟩
      exact ⟨inside, List.mem_append_right _ member, blame⟩

theorem step {first : Reader α} {next : α → (Bool → Reader Target) → Reader β}
    (shallow : first.Shallow) (rest : ∀ result, Finitary (next result)) :
    Finitary fun readings => first >>= fun result => next result readings :=
  bind (of_shallow shallow) rest

theorem pure (result : α) : Finitary fun _ => (Pure.pure result : Reader α) :=
  of_shallow (.pure result)

end Finitary

section Grammar

variable (table : SymbolTable) (arena : Arena)

theorem shallow_badIndex (position : Nat) : (badIndex table position).Shallow := by
  unfold badIndex
  split
  · exact .pure _
  · exact .throw id

theorem shallow_indexOfValue (value : Value) (position : Nat) :
    (indexOfValue table value position).Shallow := by
  unfold indexOfValue
  split
  · split
    · exact .pure _
    · exact shallow_badIndex table position
  · exact shallow_badIndex table position

theorem shallow_expect (mark : Char) {failure : Nat → Error}
    (other : ∀ position, ¬ (failure position).IsTooDeep) :
    (expect table mark failure).Shallow := by
  unfold expect
  refine .bind .peek fun next => ?_
  split
  · exact .advance
  · split
    · exact .skipPast mark
    · exact .bind .get fun place => .throw (other place.position)

theorem shallow_closeBracket : (closeBracket table).Shallow :=
  shallow_expect table ']' fun _ => id

theorem finitary_insideParens : Finitary (insideParens table arena) := by
  rw [funext (insideParens_eq table arena)]
  refine .step .advance fun _ => .bind (.inside true) fun target => ?_
  split
  · exact .pure _
  · exact .of_shallow (.bind (shallow_expect table ')' fun _ => id) fun _ => .pure _)

theorem finitary_identifier : Finitary (identifier table arena) := by
  unfold identifier
  refine .step .peek fun next => ?_
  split
  · exact .pure _
  · refine .step .advance fun _ => .step .peek fun next => ?_
    split
    · exact .bind (finitary_insideParens table arena) fun _ => .pure _
    · exact .pure _
  · split
    · exact .of_shallow (.bind (.takeWhile _) fun _ => .pure _)
    · exact .of_shallow (.bind .advance fun _ => .pure _)

theorem finitary_indexValue : Finitary (indexValue table arena) := by
  unfold indexValue
  refine .step .get fun place => .step .peek fun next => ?_
  have valued : Finitary fun readings => (do
      let target ← readings true
      indexOfValue table (target.value arena) place.position) :=
    .bind (.inside true) fun _ => .of_shallow (shallow_indexOfValue table _ _)
  split
  · split
    · refine .of_shallow (.bind (.takeWhile _) fun digits => ?_)
      simp only
      split
      · exact .pure _
      · exact shallow_badIndex table _
    · split
      · exact .step .advance fun _ => valued
      · split
        · exact valued
        · exact .of_shallow (shallow_badIndex table _)
  · exact .of_shallow (shallow_badIndex table _)

theorem finitary_indices (rounds : List Char) (current : Option NodeId) :
    Finitary fun readings => indices table arena readings rounds current := by
  induction rounds generalizing current with
  | nil => exact .pure _
  | cons _ rounds induction =>
    unfold indices
    refine .step .peek fun next => ?_
    split
    · refine .step .advance fun _ => .bind (finitary_indexValue table arena) fun index =>
        .step (shallow_closeBracket table) fun _ => ?_
      split
      · exact induction _
      · exact induction _
    · exact .pure _

theorem finitary_primary : Finitary (primary table arena) := by
  unfold primary
  refine .bind (finitary_identifier table arena) fun key => ?_
  split
  · exact .pure _
  · exact .step .get fun place => finitary_indices table arena _ _

theorem finitary_attrPart : Finitary (attrPart table arena) := by
  unfold attrPart
  refine .step .peek fun next => ?_
  split
  · refine .step .advance fun _ => .bind (finitary_identifier table arena) fun name => ?_
    split
    · exact .pure _
    · exact .pure _
  · exact .pure _

theorem finitary_pathOver (nested : Bool) :
    Finitary fun readings => pathOver table arena readings nested := by
  unfold pathOver
  refine .step .get fun place => ?_
  split
  · exact .pure _
  · split
    · exact .step .advance fun _ => .bind (.inside nested) fun _ => .readText nested _
    · refine .bind (finitary_primary table arena) fun node =>
        .bind (finitary_attrPart table arena) fun attr => .step .get fun place => ?_
      split
      · exact .of_shallow (.throw id)
      · exact .pure _

end Grammar

/-! ## Trees of readings -/

/-- The path has this outcome by a tree of readings that is so many levels high at most. What is
read inside is read by lower trees, and the outcome hangs on these alone. -/
inductive Reads (table : SymbolTable) (arena : Arena) :
    Nat → Bool → Cursor → EStateM.Result Error Cursor Target → Prop where
  | level {levels : Nat} {nested : Bool} {start : Cursor} {readings : Bool → Reader Target}
      {consulted : List Inside}
      (lower : ∀ inside ∈ consulted,
        Reads table arena levels inside.1 inside.2 (readings inside.1 inside.2))
      (only : ∀ other : Bool → Reader Target,
        (∀ inside ∈ consulted, other inside.1 inside.2 = readings inside.1 inside.2) →
          pathOver table arena other nested start = pathOver table arena readings nested start) :
      Reads table arena (levels + 1) nested start (pathOver table arena readings nested start)

def TooDeep (outcome : EStateM.Result Error Cursor Target) : Prop :=
  ∃ failure place, outcome = .error failure place ∧ failure.IsTooDeep

section Trees

variable {table : SymbolTable} {arena : Arena} {levels more : Nat} {nested : Bool} {start : Cursor}
  {outcome : EStateM.Result Error Cursor Target}

theorem Reads.mono (reads : Reads table arena levels nested start outcome) (le : levels ≤ more) :
    Reads table arena more nested start outcome := by
  induction reads generalizing more with
  | level _ only induction =>
    obtain ⟨more, rfl⟩ := Nat.exists_eq_add_of_lt (Nat.lt_of_succ_le le)
    exact .level (fun inside member => induction inside member (by omega)) only

theorem Reads.below_eq (reads : Reads table arena levels nested start outcome) :
    Path.below table arena levels nested start = outcome := by
  induction reads with
  | level _ only induction => exact only _ induction

theorem Reads.not_tooDeep (reads : Reads table arena levels nested start outcome) :
    ¬ TooDeep outcome := by
  induction reads with
  | @level levels nested start readings consulted _ only induction =>
    rintro ⟨failure, place, ran, deep⟩
    classical
    -- the readings of other paths do not matter, so let them find nothing
    let known : Bool → Reader Target := fun exempt cursor =>
      if (exempt, cursor) ∈ consulted then readings exempt cursor else .ok .nothing cursor
    have same := only known fun inside member => if_pos member
    rcases finitary_pathOver table arena nested known start with ⟨_, consults⟩
    rcases consults.blamed failure place (same.trans ran) deep with ⟨inside, -, earlier, blame⟩
    by_cases member : inside ∈ consulted
    · exact induction inside member ⟨failure, earlier, (if_pos member).symm.trans blame, deep⟩
    · cases (if_neg member).symm.trans blame

theorem reads_below (shallow : ¬ TooDeep (below table arena levels nested start)) :
    Reads table arena levels nested start (below table arena levels nested start) := by
  induction levels generalizing nested start with
  | zero => exact absurd ⟨_, _, rfl, trivial⟩ shallow
  | succ levels induction =>
    rcases finitary_pathOver table arena nested (below table arena levels) start with
      ⟨consulted, consults⟩
    refine .level (fun inside member => induction ?_) consults.only
    rintro ⟨failure, place, ran, deep⟩
    rcases consults.noticed inside member failure place ran with ⟨later, failed⟩
    exact shallow ⟨failure, later, failed, deep⟩

/-- A tree of so many levels and the reader that has so many levels left say the same. -/
theorem reads_iff_below : Reads table arena levels nested start outcome ↔
    below table arena levels nested start = outcome ∧ ¬ TooDeep outcome := by
  constructor
  · exact fun reads => ⟨reads.below_eq, reads.not_tooDeep⟩
  · rintro ⟨rfl, shallow⟩
    exact reads_below shallow

theorem excess_below {failure : Error} {place : Cursor}
    (ran : below table arena levels nested start = .error failure place)
    (deep : failure.IsTooDeep) :
    failure = .tooDeep ⟨table.limit.max + 1, table.limit.max⟩ := by
  induction levels generalizing nested start place with
  | zero =>
    cases ran
    rfl
  | succ levels induction =>
    rcases finitary_pathOver table arena nested (below table arena levels) start with
      ⟨_, consults⟩
    rcases consults.blamed failure place ran deep with ⟨inside, -, earlier, blame⟩
    exact induction blame

end Trees
end RecordGraph.Path
