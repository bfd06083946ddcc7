import RecordGraph.Path.Creation

/-!
# Steps along a path that makes way

What a step along a path leads to is said of the arena before it and of the arenas that it leaves on
success and on failure. The parts of a path hand on what is known of the arena: each of them is gone
through here once, for whatever is known.
-/

namespace RecordGraph.Path

namespace Builder

def Meets (builder : Builder α) (before : Arena → Prop) (after : α → Arena → Prop)
    (failed : Arena → Prop) : Prop :=
  ∀ progress, before progress.arena →
    match builder progress with
    | .ok result later => after result later.arena
    | .error _ later => failed later.arena

section

variable {before failed : Arena → Prop} {middle : α → Arena → Prop} {after : β → Arena → Prop}

theorem Meets.bind {builder : Builder α} {next : α → Builder β}
    (first : builder.Meets before middle failed)
    (rest : ∀ result, (next result).Meets (middle result) after failed) :
    (builder >>= next).Meets before after failed := by
  intro progress holds
  have one := first progress holds
  change match EStateM.bind builder next progress with | .ok .. => _ | .error .. => _
  unfold EStateM.bind
  cases ran : builder progress with
  | ok result later =>
    rw [ran] at one
    exact rest result later one
  | error failure later =>
    rw [ran] at one
    exact one

theorem Meets.mono {builder : Builder β} {earlier undone : Arena → Prop}
    (meets : builder.Meets before after failed) (start : ∀ arena, earlier arena → before arena)
    (fails : ∀ arena, failed arena → undone arena) : builder.Meets earlier after undone := by
  intro progress holds
  have one := meets progress (start _ holds)
  cases ran : builder progress with
  | ok result later =>
    rw [ran] at one
    exact one
  | error failure later =>
    rw [ran] at one
    exact fails later.arena one

theorem meets_pure {result : β} (holds : ∀ {arena}, before arena → after result arena) :
    (pure result : Builder β).Meets before after failed :=
  fun _ given => holds given

theorem meets_throw (failure : Error) : (throw failure : Builder β).Meets failed after failed :=
  fun _ holds => holds

theorem meets_get : (get : Builder Progress).Meets before (fun _ => before) failed :=
  fun _ holds => holds

theorem meets_look (reader : Arena → Reader β) :
    (look reader).Meets before (fun _ => before) before := by
  intro progress holds
  unfold look
  split
  · rename_i same
    split at same <;> cases same
    exact holds
  · rename_i same
    split at same <;> cases same
    exact holds

theorem meets_change {action : Arena → β × Arena}
    (leads : ∀ arena, before arena → after (action arena).1 (action arena).2) :
    (change action).Meets before after failed :=
  fun progress holds => leads progress.arena holds

theorem Meets.onFailure {builder : Builder β} {action : Arena → Arena} {undone : Arena → Prop}
    (meets : builder.Meets before after failed)
    (leads : ∀ arena, failed arena → undone (action arena)) :
    (builder.onFailure action).Meets before after undone := by
  intro progress holds
  have one := meets progress holds
  unfold Builder.onFailure
  cases ran : builder progress with
  | ok result later =>
    rw [ran] at one
    exact one
  | error failure later =>
    rw [ran] at one
    exact leads later.arena one

end

/-- Whether it succeeds or fails, a step keeps a property of the arena. -/
def Preserves (builder : Builder α) (holds : Arena → Prop) : Prop :=
  builder.Meets holds (fun _ => holds) holds

namespace Preserves

variable {holds : Arena → Prop}

theorem bind {builder : Builder α} {next : α → Builder β} (first : builder.Preserves holds)
    (rest : ∀ result, (next result).Preserves holds) : (builder >>= next).Preserves holds :=
  Meets.bind first rest

theorem pure (result : α) : (Pure.pure result : Builder α).Preserves holds :=
  meets_pure id

theorem throw (failure : Error) : (MonadExcept.throw failure : Builder α).Preserves holds :=
  meets_throw failure

theorem get : (MonadState.get : Builder Progress).Preserves holds :=
  meets_get

theorem look (reader : Arena → Reader α) : (Builder.look reader).Preserves holds :=
  meets_look reader

end Preserves

theorem Preserves.onFailure {builder : Builder α} {action : Arena → Arena} {holds : Arena → Prop}
    (preserves : builder.Preserves holds) (kept : ∀ arena, holds arena → holds (action arena)) :
    (builder.onFailure action).Preserves holds :=
  Meets.onFailure preserves kept

end Builder

open Builder (Preserves)

/-! ## The parts of a path -/

/-- What every filler keeps, be it linked or freed again, is kept where room is made. -/
theorem fillUp_keeps (holds : Arena → Prop) {registry : Registry} {template : Option NodeId}
    {parent : NodeId} {index : Nat}
    (filled : ∀ {arena filler stored}, holds arena → arena.childCount parent ≤ index →
      freshNode registry template "" arena = (filler, stored) →
        if (stored.pushChild parent filler).1 then holds (stored.pushChild parent filler).2
        else holds ((stored.pushChild parent filler).2.releaseIfUnowned filler))
    (rounds : Nat) {arena : Arena} (begins : holds arena) :
    holds (fillUp registry template parent index rounds arena) := by
  induction rounds generalizing arena with
  | zero => exact begins
  | succ rounds induction =>
    unfold fillUp
    split
    · exact begins
    · rename_i missing
      rcases made : freshNode registry template "" arena with ⟨filler, stored⟩
      have kept := filled begins (Nat.le_of_not_lt missing) made
      simp only
      split
      · rename_i pushed
        rw [if_pos pushed] at kept
        exact induction kept
      · rename_i refused
        rwa [if_neg refused] at kept

section

variable {table : SymbolTable} {create : Bool} {template : Option NodeId}

theorem preserves_makeRoom {parent : NodeId} {index : Nat} {holds : Arena → Prop}
    (filled : ∀ {arena} rounds, DepthLimit.padding.allows (index + 1) = true → holds arena →
      holds (fillUp table.registry template parent index rounds (arena.ensureChildren parent))) :
    (makeRoom table template parent index).Preserves holds := by
  unfold makeRoom
  apply Preserves.get.bind
  intro progress
  by_cases present : index < progress.arena.childCount parent
  · simp only [present, ↓reduceIte]
    exact .pure ()
  · simp only [present, ↓reduceIte]
    split
    · rename_i allowed
      exact Builder.meets_change fun arena => filled _ allowed
    · exact .throw _

theorem meets_childAt {parent : NodeId} {index : Nat} {before : Arena → Prop}
    {after : Option NodeId → Arena → Prop} {failed : Arena → Prop}
    (room : (makeRoom table template parent index).Meets before (fun _ => before) failed)
    (read : ∀ {arena}, before arena → after (arena.child? parent index) arena) :
    (childAt table create template parent index).Meets before after failed := by
  have found : (do return (← get).arena.child? parent index : Builder (Option NodeId)).Meets
      before after failed :=
    fun _ holds => read holds
  unfold childAt
  split
  · exact room.bind fun _ => found
  · exact found

/-- What is known of the node that was reached and of the last place is handed on from index to
index. -/
theorem meets_followIndices (holds : Option NodeId → Option (NodeId × Nat) → Arena → Prop)
    {failed : Arena → Prop}
    (reached : ∀ parent index place, (childAt table create template parent index).Meets
      (holds (some parent) place)
      (fun child => holds child (if child.isSome then some (parent, index) else place)) failed)
    (lost : ∀ {current place arena}, holds current place arena → holds none place arena)
    (fails : ∀ {current place arena}, holds current place arena → failed arena)
    (rounds : List Char) (current : Option NodeId) (place : Option (NodeId × Nat)) :
    (followIndices table create template rounds current place).Meets (holds current place)
      (fun result => holds result.1 result.2) failed := by
  have look {α : Type} (reader : Arena → Reader α) {current : Option NodeId}
      {place : Option (NodeId × Nat)} : (Builder.look reader).Meets (holds current place)
        (fun _ => holds current place) failed :=
    (Builder.meets_look reader).mono (fun _ => id) fun _ => fails
  induction rounds generalizing current place with
  | nil => exact Builder.meets_pure id
  | cons _ rounds induction =>
    unfold followIndices
    apply Builder.meets_get.bind
    intro progress
    split
    · apply (look _).bind
      intro _
      apply (look _).bind
      intro index
      split
      · apply (reached _ _ _).bind
        intro child
        exact (look _).bind fun _ => induction _ _
      · apply (look _).bind
        intro _
        exact (induction none place).mono (fun _ => lost) fun _ => id
    · exact Builder.meets_pure id

theorem meets_buildIndices (holds : Option NodeId → Option (NodeId × Nat) → Arena → Prop)
    {start : NodeId} {before after failed : Arena → Prop}
    (followed : ∀ rounds, (followIndices table create template rounds (some start) none).Meets
      before (fun result => holds result.1 result.2) failed)
    (put : ∀ {node last parent index arena}, template = some node →
      holds (some last) (some (parent, index)) arena → after (arena.setChild parent index node).2)
    (kept : ∀ {current place arena}, holds current place arena → after arena) :
    (buildIndices table create template start).Meets before (fun _ => after) failed := by
  unfold buildIndices
  apply Builder.meets_get.bind
  intro progress
  apply (followed _).bind
  intro reached
  split
  · rename_i node last parent index
    have placed : (Builder.change fun arena => ((), (arena.setChild parent index node).2)).Meets
        (holds (some last) (some (parent, index))) (fun _ => after) failed :=
      Builder.meets_change fun arena => put rfl
    exact placed.bind fun _ => Builder.meets_pure id
  · exact Builder.meets_pure kept

variable {before after : Arena → Prop}

/-- A primary keeps what its indices keep, from the node that is bound and from one that is
built. -/
theorem keeps_buildPrimary (built : NodeId → Arena → Prop)
    (unchanged : ∀ {arena}, before arena → after arena)
    (existing : ∀ key node, table.lookup key = some node →
      (buildIndices table create template node).Meets before (fun _ => after) after)
    (fresh : ∀ key {arena}, before arena → built (freshNode table.registry template key arena).1
      (freshNode table.registry template key arena).2)
    (addressed : ∀ node,
      (buildIndices table create template node).Meets (built node) (fun _ => after) after)
    (freed : ∀ node arena, after arena → after (arena.releaseIfUnowned node)) :
    (buildPrimary table create template).Meets before (fun _ => after) after := by
  unfold buildPrimary
  apply ((Builder.meets_look _).mono (fun _ => id) fun _ => unchanged).bind
  intro key
  split
  · exact Builder.meets_pure unchanged
  · split
    · rename_i node found
      apply (existing key node found).bind
      intro addressed
      split
      · split <;> exact Builder.meets_pure id
      · exact Builder.meets_pure id
    · split
      · have stored : (Builder.change (freshNode table.registry template key)).Meets before built
            after :=
          Builder.meets_change fun arena => fresh key
        apply stored.bind
        intro node
        apply ((addressed node).onFailure (freed node)).bind
        intro reached
        split
        · split
          · exact (Builder.meets_change (freed node)).bind fun _ => Builder.meets_pure id
          · exact Builder.meets_pure id
        · exact Builder.meets_pure id
      · exact Builder.meets_pure unchanged

theorem preserves_buildEnd (table : SymbolTable) (create : Bool) {holds : Arena → Prop}
    (interned : ∀ name arena, holds arena → holds (internAttr name arena).2) :
    (buildEnd table create).Preserves holds := by
  have attr : (buildAttr table create).Preserves holds := by
    unfold buildAttr
    apply Preserves.get.bind
    intro progress
    split
    · apply (Preserves.look _).bind
      intro _
      apply (Preserves.look _).bind
      intro name
      split
      · exact .pure none
      · split
        · exact Builder.meets_change fun arena => interned name arena
        · exact Preserves.get.bind fun _ => .pure _
    · exact .pure _
  unfold buildEnd
  apply attr.bind
  intro found
  apply Preserves.get.bind
  intro progress
  simp only
  split
  · exact .throw _
  · exact .pure found

theorem keeps_buildPath
    (primary : (buildPrimary table create template).Meets before (fun _ => after) after)
    (freed : ∀ node arena, after arena → after (arena.releaseIfUnowned node))
    (interned : ∀ name arena, after arena → after (internAttr name arena).2) :
    (buildPath table create template).Meets before (fun _ => after) after := by
  unfold buildPath
  apply primary.bind
  intro result
  have abandoned (arena : Arena) (kept : after arena) : after (abandon result.2 arena) := by
    unfold abandon
    split
    · exact freed _ arena kept
    · exact kept
  have ended := (preserves_buildEnd table create interned).onFailure abandoned
  exact Builder.Meets.bind ended fun attr => Builder.meets_pure id

end

/-! ## Properties that every change keeps -/

structure Keeping (registry : Registry) (template : Option NodeId) (holds : Arena → Prop) :
    Prop where
  built : ∀ {arena} name, holds arena → holds (freshNode registry template name arena).2
  roomy : ∀ {arena} parent, holds arena → holds (arena.ensureChildren parent)
  pushed : ∀ {arena} parent child, holds arena → holds (arena.pushChild parent child).2
  put : ∀ {arena node} parent index, template = some node → holds arena →
    holds (arena.setChild parent index node).2
  freed : ∀ {arena} node, holds arena → holds (arena.releaseIfUnowned node)
  interned : ∀ {arena} name, holds arena → holds (internAttr name arena).2

namespace Keeping

variable {table : SymbolTable} {template : Option NodeId} {holds : Arena → Prop}
  (keeping : Keeping table.registry template holds) (create : Bool)

include keeping

theorem makeRoom (parent : NodeId) (index : Nat) :
    (makeRoom table template parent index).Preserves holds := by
  apply preserves_makeRoom
  intro arena rounds _ begins
  apply fillUp_keeps holds _ rounds (keeping.roomy parent begins)
  intro middle filler stored kept _ made
  have built := keeping.built "" kept
  rw [made] at built
  have pushed := keeping.pushed parent filler built
  split
  · exact pushed
  · exact keeping.freed filler pushed

theorem buildIndices (start : NodeId) :
    (buildIndices table create template start).Preserves holds := by
  have child (parent : NodeId) (index : Nat) :
      (childAt table create template parent index).Preserves holds :=
    meets_childAt (keeping.makeRoom parent index) id
  have followed (rounds : List Char) :=
    meets_followIndices (fun _ _ => holds) (fun parent index _ => child parent index)
      id id rounds (some start) none
  exact meets_buildIndices (fun _ _ => holds) followed (keeping.put _ _) id

theorem buildPrimary : (buildPrimary table create template).Preserves holds :=
  keeps_buildPrimary (fun _ => holds) id
    (fun _ node _ => keeping.buildIndices create node) (fun key => keeping.built key)
    (keeping.buildIndices create) fun node _ => keeping.freed node

theorem buildPath : (buildPath table create template).Preserves holds :=
  keeps_buildPath (keeping.buildPrimary create) (fun node _ => keeping.freed node)
    fun name _ => keeping.interned name

end Keeping

end RecordGraph.Path
