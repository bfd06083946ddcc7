import RecordGraph.Document.Cursor
import RecordGraph.Proofs.Text.Runs

/-!
# Moving a cursor over runs

A cursor in front of a run of characters moves behind it, and counts the line feeds of the run.
-/

namespace RecordGraph.Document
open Text

namespace Cursor

variable {test : Char → Bool} {run rest : List Char}

@[simp] theorem past_append (line : Nat) (run rest : List Char) :
    (Cursor.mk line (run ++ rest)).past run = ⟨line + run.count '\n', rest⟩ := by
  simp [past]

theorem skip_run (passes : ∀ character ∈ run, test character = true) (stops : Stops test rest)
    (line : Nat) :
    (Cursor.mk line (run ++ rest)).skip test = ⟨line + run.count '\n', rest⟩ := by
  rw [skip, ahead, takeWhile_run passes stops, past_append]

theorem skip_append (passes : ∀ character ∈ run, test character = true) (line : Nat)
    (rest : List Char) :
    (Cursor.mk line (run ++ rest)).skip test =
      (Cursor.mk (line + run.count '\n') rest).skip test := by
  simp [skip, ahead, past, List.takeWhile_append_of_pos passes, List.drop_append, Nat.add_assoc]

theorem skip_nothing (stops : Stops test rest) (line : Nat) :
    (Cursor.mk line rest).skip test = ⟨line, rest⟩ :=
  @skip_run _ [] _ nofun stops line

theorem next_cons {character : Char} (visible : character ≠ '\n') (line : Nat)
    (rest : List Char) : (Cursor.mk line (character :: rest)).next = ⟨line, rest⟩ := by
  simp [next, past, visible]

@[simp] theorem peek_cons (line : Nat) (character : Char) (rest : List Char) :
    (Cursor.mk line (character :: rest)).peek = some character := rfl

@[simp] theorem isAt_cons (line : Nat) (first character : Char) (rest : List Char) :
    (Cursor.mk line (first :: rest)).isAt character = (first == character) := by
  simp [isAt]

@[simp] theorem isAtEnd_cons (line : Nat) (first : Char) (rest : List Char) :
    (Cursor.mk line (first :: rest)).isAtEnd = false := rfl

end Cursor

namespace Scanner

def Stands (stops rest : List Char) : Prop :=
  ∃ character behind, rest = character :: behind ∧ stops.contains character = true

variable {stops run rest : List Char}

@[simp] theorem run_advance (cursor : Cursor) : advance.run cursor = .ok () cursor.next := rfl

@[simp] theorem run_skip (test : Char → Bool) (cursor : Cursor) :
    (skip test).run cursor = .ok () (cursor.skip test) := rfl

theorem run_takeUntil (feed : stops.contains '\n' = true)
    (passes : ∀ character ∈ run, stops.contains character = false)
    (stands : Stands stops rest) (line : Nat) :
    (takeUntil stops).run ⟨line, run ++ rest⟩ = .ok run ⟨line, rest⟩ := by
  have ahead : (Cursor.mk line (run ++ rest)).ahead (fun character => !stops.contains character) =
      run := by
    apply takeWhile_run
    · intro character member
      rw [passes character member, Bool.not_false]
    · rcases stands with ⟨character, behind, rfl, stop⟩
      rw [stops_cons, stop, Bool.not_true]
  have feedless : run.count '\n' = 0 := by
    refine List.count_eq_zero.mpr fun member => ?_
    rw [passes '\n' member] at feed
    cases feed
  simp only [takeUntil, EStateM.run_modifyGet, ahead, Cursor.past_append, feedless, Nat.add_zero]

theorem run_takeUntil_nothing (feed : stops.contains '\n' = true) (stands : Stands stops rest)
    (line : Nat) : (takeUntil stops).run ⟨line, rest⟩ = .ok [] ⟨line, rest⟩ :=
  @run_takeUntil _ [] _ feed nofun stands line

theorem run_expect (stands : Stands stops rest) (line : Nat) :
    (expect stops).run ⟨line, rest⟩ = .ok () ⟨line, rest⟩ := by
  rcases stands with ⟨character, behind, rfl, stop⟩
  simp only [expect, EStateM.run_bind, EStateM.run_get, Cursor.peek_cons, stop, ↓reduceIte]
  rfl

end Scanner
end RecordGraph.Document
