import RecordGraph.Proofs.Arena.Replacement
import RecordGraph.Proofs.Arena.Spreading

/-!
# Ways that end at an exchanged child

A way along child lists that ends at a place leads to the child that is put there, unless it met the
place before: then it goes on below the new child. Where an arena grows, ways meet no place twice
that they did not meet twice before.
-/

namespace RecordGraph.Arena

def Revisits (arena : Arena) (origin : NodeId) (numbers : List Nat) : Prop :=
  ∃ front index middle parent, numbers = front ++ index :: (middle ++ [index]) ∧
    arena.descend origin front = some parent ∧
      arena.descend origin (front ++ index :: middle) = some parent

variable {arena before after : Arena} {origin node parent child next old : NodeId} {index : Nat}
  {numbers : List Nat}

theorem Revisits.cons (stands : arena.child? origin index = some next)
    (revisits : arena.Revisits next numbers) : arena.Revisits origin (index :: numbers) := by
  rcases revisits with ⟨front, last, middle, parent, rfl, once, twice⟩
  refine ⟨index :: front, last, middle, parent, rfl, ?_, ?_⟩
  · rw [descend, stands, Option.bind_some, once]
  · rw [List.cons_append, descend, stands, Option.bind_some, twice]

theorem Revisits.leads (revisits : arena.Revisits origin numbers) :
    ∃ node, arena.descend origin numbers = some node := by
  rcases revisits with ⟨front, index, middle, parent, rfl, once, twice⟩
  have around : arena.descend parent (index :: middle) = some parent := by
    rwa [descend_append, once, Option.bind_some] at twice
  rcases Option.bind_eq_some_iff.mp around with ⟨child, stands, -⟩
  refine ⟨child, ?_⟩
  rw [← List.cons_append, ← List.append_assoc, descend_append, twice, Option.bind_some,
    descend_singleton, stands]

theorem revisits_of_loop (around : arena.descend origin (index :: numbers) = some origin) :
    arena.Revisits origin (index :: (numbers ++ [index])) :=
  ⟨[], index, numbers, origin, rfl, rfl, around⟩

theorem reaches_of_descend (way : arena.descend origin numbers = some node) :
    arena.Reaches origin node := by
  induction numbers generalizing origin with
  | nil =>
    cases way
    exact .refl
  | cons index numbers induction =>
    rcases Option.bind_eq_some_iff.mp way with ⟨child, stands, onward⟩
    exact .head (Array.mem_of_getElem? stands) (induction onward)

theorem below_of_descend (way : arena.descend origin (index :: numbers) = some node) :
    arena.Below origin node := by
  rcases Option.bind_eq_some_iff.mp way with ⟨child, stands, onward⟩
  exact below_iff.mpr (.head' (Array.mem_of_getElem? stands) (reaches_of_descend onward))

/-! ## Where an arena grows -/

namespace Spreads

variable (spreads : before.Spreads after)

include spreads

theorem new_of_reaches (new : ¬ before.Issued origin) (reaches : after.Reaches origin node) :
    ¬ before.Issued node := by
  induction reaches with
  | refl => exact new
  | tail _ member induction =>
    rcases spreads.mem_cases member with earlier | newer
    · exact absurd (issued_of_contains (contains_of_mem_children earlier)) induction
    · exact newer

theorem descend_of_issued (known : before.Issued node)
    (way : after.descend origin numbers = some node) :
    before.descend origin numbers = some node := by
  induction numbers generalizing origin with
  | nil => exact way
  | cons index numbers induction =>
    rcases Option.bind_eq_some_iff.mp way with ⟨child, stands, onward⟩
    rcases spreads.grown stands with earlier | new
    · rw [descend, earlier, Option.bind_some, induction onward]
    · exact absurd known (spreads.new_of_reaches new (reaches_of_descend onward))

theorem revisits (revisits : after.Revisits origin numbers) : before.Revisits origin numbers := by
  rcases revisits with ⟨front, index, middle, parent, rfl, once, twice⟩
  have around : after.descend parent (index :: middle) = some parent := by
    rwa [descend_append, once, Option.bind_some] at twice
  have known : before.Issued parent := by
    by_contra new
    exact spreads.acyclic new (below_of_descend around)
  exact ⟨front, index, middle, parent, rfl, spreads.descend_of_issued known once,
    spreads.descend_of_issued known twice⟩

theorem not_revisits_of_new (new : ¬ before.Issued origin) : ¬ after.Revisits origin numbers := by
  rintro ⟨front, index, middle, parent, rfl, once, twice⟩
  rw [descend_append, once, Option.bind_some] at twice
  exact spreads.acyclic (spreads.new_of_reaches new (reaches_of_descend once))
    (below_of_descend twice)

end Spreads

/-! ## Where a child is exchanged -/

section

variable {holds : NodeId → Nat} {front : List Nat} (steady : arena.Steady [] holds)
  (stood : arena.child? parent index = some old)

include steady stood

/-- The node at the beginning of a way stands when a child is given up, if it is held or nobody
owns it. -/
theorem contains_exchanged (linkable : arena.canLink child = true)
    (secure : 0 < holds origin ∨ origin ≠ child ∧ arena.isUnowned origin = true) :
    ((arena.exchanged parent index child).release old).contains origin = true := by
  have owing := steady.exchange stood linkable
  rcases secure with held | ⟨other, unowned⟩
  · have count := owing.release.1.ownerCount_eq origin
    exact contains_of_ownerCount_pos (by omega)
  · rcases isUnowned_iff.mp unowned with ⟨content, found⟩
    have still : ∃ node, (arena.exchanged parent index child).live? origin = some (node, 0) := by
      by_cases same : origin = parent
      · subst same
        rw [exchanged, live?_modifyNode, if_pos rfl, live?_retain, if_neg other, found]
        exact ⟨_, rfl⟩
      · rw [live?_exchanged same, if_neg other]
        exact ⟨content, found⟩
    rcases still with ⟨node, found⟩
    exact contains_iff.mpr ⟨node, 0, live?_release_of_unowned owing.balances found⟩

/-- A way that does not meet its last place before leads to the child that is put there. -/
theorem descend_setChild
    (accepted : old = child ∨
      arena.canLink child = true ∧ ¬ arena.Revisits origin (front ++ [index]))
    (secure : 0 < holds origin ∨ origin ≠ child ∧ arena.isUnowned origin = true)
    (way : arena.descend origin front = some parent) :
    (arena.setChild parent index child).2.descend origin (front ++ [index]) = some child := by
  rw [setChild_of_child stood]
  split
  · rename_i allowed
    have once := (accepted.resolve_left allowed.1).2
    have standing := contains_exchanged steady stood allowed.2 secure
    rcases (steady.exchange stood allowed.2).release with ⟨released, wanes⟩
    generalize (arena.exchanged parent index child).release old = later at standing released wanes ⊢
    have replaced := replaces_exchanged stood child
    have child?_later {id : NodeId} (standing : later.contains id = true) (place : Nat) :
        later.child? id place =
          if id = parent ∧ place = index then some child else arena.child? id place := by
      rw [child?, wanes.children standing]
      exact replaced id place
    clear secure accepted
    induction front generalizing origin with
    | nil =>
      cases way
      rw [List.nil_append, descend_singleton, child?_later standing, if_pos ⟨rfl, rfl⟩]
    | cons first front induction =>
      rcases Option.bind_eq_some_iff.mp way with ⟨next, stands, onward⟩
      have other : ¬ (origin = parent ∧ first = index) := by
        rintro ⟨rfl, rfl⟩
        exact once (revisits_of_loop way)
      have kept : later.child? origin first = some next := by
        rw [child?_later standing, if_neg other, stands]
      rw [List.cons_append, descend, kept, Option.bind_some]
      exact induction onward (fun revisits => once (revisits.cons stands))
        (released.child_live (Array.mem_of_getElem? kept))
  · rename_i refused
    have same : old = child := by
      by_contra different
      exact refused ⟨different, (accepted.resolve_left different).1⟩
    rw [descend_append, way, Option.bind_some, descend_singleton, stood, same]

end

end RecordGraph.Arena
