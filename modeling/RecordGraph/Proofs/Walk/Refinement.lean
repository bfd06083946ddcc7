import RecordGraph.Proofs.Arena.Slots
import RecordGraph.Proofs.Walk.Steps

/-!
# Walks follow the recursion

The frames of a walk are what is left to do of the lists and loops that are open. Each step of a
walk is one move of the recursion, so a walk comes to its end exactly if the recursion does, with
the same nodes in the same order and the same arena and table.
-/

namespace RecordGraph

namespace Walk

/-! ## Runs to the end -/

/-- The nodes that a walk hands out one after the other until it has ended, and what is stored by
then. -/
inductive Drains : Walk → List NodeId → Store → Prop where
  | ended {walk final : Walk} {rounds : Nat} (ran : walk.next rounds = some (none, final)) :
      Drains walk [] final.store
  | handed {walk later : Walk} {rounds : Nat} {node : NodeId} {given : List NodeId} {final : Store}
      (ran : walk.next rounds = some (some node, later)) (rest : Drains later given final) :
      Drains walk (node :: given) final

inductive Runs : Walk → List NodeId → Store → Prop where
  | ended {walk final : Walk} (rests : walk.step = (false, final)) (none : final.here = none) :
      Runs walk [] final.store
  | moved {walk later : Walk} {given : List NodeId} {final : Store}
      (moves : walk.step = (true, later)) (rest : Runs later given final) : Runs walk given final
  | handed {walk settled : Walk} {node : NodeId} {given : List NodeId} {final : Store}
      (rests : walk.step = (false, settled)) (found : settled.here = some node)
      (rest : Runs settled.skip given final) : Runs walk (node :: given) final

theorem next_of_moves {walk later : Walk} (moves : walk.step = (true, later)) (rounds : Nat) :
    walk.next (rounds + 1) = later.next rounds := by
  simp only [next_eq, settle, moves]

theorem next_of_ends {walk settled : Walk} (rests : walk.step = (false, settled))
    (ends : settled.here = none) (rounds : Nat) :
    walk.next (rounds + 1) = some (none, settled) := by
  simp [next_eq, settle, rests, ends]

theorem next_of_rests {walk settled : Walk} {node : NodeId}
    (rests : walk.step = (false, settled)) (found : settled.here = some node) (rounds : Nat) :
    walk.next (rounds + 1) = some (some node, settled.skip) := by
  simp [next_eq, settle, rests, found]

variable {walk : Walk} {given : List NodeId} {final : Store}

theorem drains_of_runs (runs : Runs walk given final) : Drains walk given final := by
  induction runs with
  | ended rests none => exact .ended (next_of_ends rests none 0)
  | moved moves rest induction =>
    cases induction with
    | ended ran => exact .ended ((next_of_moves moves _).trans ran)
    | handed ran drains => exact .handed ((next_of_moves moves _).trans ran) drains
  | handed rests found rest induction => exact .handed (next_of_rests rests found 0) induction

private theorem runs_of_next {rounds : Nat} {later : Walk} {handed : Option NodeId}
    (ran : walk.next rounds = some (handed, later))
    (ended : handed = none → given = [] ∧ later.store = final)
    (goesOn : ∀ node, handed = some node → Runs later given final) :
    Runs walk (handed.toList ++ given) final := by
  induction rounds generalizing walk with
  | zero => cases ran
  | succ rounds induction =>
    rcases stepped : walk.step with ⟨moves, settled⟩
    cases moves with
    | true =>
      rw [next_of_moves stepped] at ran
      exact .moved stepped (induction ran)
    | false =>
      cases found : settled.here with
      | none =>
        rw [next_of_ends stepped found] at ran
        cases ran
        rcases ended rfl with ⟨rfl, rfl⟩
        exact .ended stepped found
      | some node =>
        rw [next_of_rests stepped found] at ran
        cases ran
        exact .handed stepped found (goesOn node rfl)

theorem runs_of_drains (drains : Drains walk given final) : Runs walk given final := by
  induction drains with
  | ended ran => exact runs_of_next ran (fun _ => ⟨rfl, rfl⟩) nofun
  | handed ran rest induction => exact runs_of_next ran nofun fun _ _ => induction

/-! ## From the recursion to the walk -/

def Carries (limit : DepthLimit) (depth : Nat) (store : Store) (given : List NodeId)
    (later : Store) : Task → Prop
  | .list list position => ∀ {turn outer more final}, depth = outer.length + 1 →
      (∀ finish, later.arena.child? list finish = none →
        Runs (later.over (⟨list, finish, turn⟩ :: outer) limit) more final) →
      Runs (store.over (⟨list, position, turn⟩ :: outer) limit) (given ++ more) final
  | .turns _ [] => True
  | .turns loop (counter :: rest) => ∀ {stop below outer more final}, depth = outer.length + 2 →
      rest = (counters counter stop).tail →
      Runs (later.over (Frame.skip below :: outer) limit) more final →
      Runs ((store.bindCounter loop counter).over
        (⟨loop, 0, some ⟨counter, stop⟩⟩ :: below :: outer) limit) (given ++ more) final

theorem carries_of_expands {limit : DepthLimit} {depth : Nat} {task : Task} {store later : Store}
    {given : List NodeId} (expands : Expands limit depth task store given later) :
    Carries limit depth store given later task := by
  induction expands with
  | finished missing => exact fun _ rest => rest _ missing
  | ordinary found met expands induction =>
    intro turn outer more final same rest
    subst same
    have stepped := step_child limit ⟨_, _, turn⟩ outer found
    rw [met] at stepped
    exact .handed stepped found (induction rfl rest)
  | nothing found met expands induction =>
    intro turn outer more final same rest
    subst same
    have stepped := step_child limit ⟨_, _, turn⟩ outer found
    rw [met] at stepped
    exact .moved stepped (induction rfl rest)
  | loop found enters body expands bodyInduction induction =>
    intro turn outer more final same rest
    subst same
    have stepped := step_child limit ⟨_, _, turn⟩ outer found
    rw [enters] at stepped
    refine .moved stepped ?_
    rw [List.append_assoc]
    -- the counter of the first turn is bound when the loop is entered
    rw [counters_of_not_lt (not_lt_of_encounter limit enters)] at bodyInduction
    exact bodyInduction rfl rfl (induction rfl rest)
  | selected found enters body expands bodyInduction induction =>
    intro turn outer more final same rest
    subst same
    have stepped := step_child limit ⟨_, _, turn⟩ outer found
    rw [enters] at stepped
    refine .moved stepped ?_
    rw [List.append_assoc]
    apply bodyInduction rfl
    intro finish missing
    exact .moved (step_leave limit ⟨_, finish, none⟩ _ missing rfl) (induction rfl rest)
  | noTurn => trivial
  | @turn depth loop counter rest _ middle later _ _ body expands bodyInduction induction =>
    intro stop below outer further final same values continues
    rw [List.append_assoc]
    have inner : depth = (below :: outer).length + 1 := same
    apply bodyInduction inner
    intro finish missing
    cases rest with
    | nil =>
      cases expands
      exact .moved (step_leave limit ⟨loop, finish, some ⟨counter, stop⟩⟩ _ missing values.symm)
        continues
    | cons next rest =>
      by_cases less : counter < stop
      · rw [tail_counters_of_lt less] at values
        rcases List.cons.inj values with ⟨rfl, others⟩
        exact .moved (step_turn limit _ missing less) (induction same others continues)
      · rw [tail_counters_of_not_lt less] at values
        cases values

/-! ## From the walk to the recursion -/

def Completes (limit : DepthLimit) (depth : Nat) (frame : Frame) (store : Store)
    (given : List NodeId) (later : Store) : Prop :=
  ∃ first middle more, given = first ++ more ∧
    Expands limit depth (.list frame.list frame.position) store first middle ∧
    Expands limit depth (.turns frame.list frame.remaining) middle more later

inductive Finishes (limit : DepthLimit) : List Frame → Store → List NodeId → Store → Prop where
  | none {store : Store} : Finishes limit [] store [] store
  | outermost {frame : Frame} {store later : Store} {given : List NodeId}
      (own : Completes limit 1 frame store given later) : Finishes limit [frame] store given later
  | inner {frame below : Frame} {outer : List Frame} {store middle later : Store}
      {given more : List NodeId}
      (own : Completes limit (outer.length + 2) frame store given middle)
      (rest : Finishes limit (below.skip :: outer) middle more later) :
      Finishes limit (frame :: below :: outer) store (given ++ more) later

section Finishes

variable {limit : DepthLimit} {depth : Nat} {frame new : Frame} {outer : List Frame}
  {store middle later : Store} {given first : List NodeId}

theorem Finishes.before (first : List NodeId)
    (finishes : Finishes limit (new :: outer) middle given later)
    (own : ∀ {given later}, Completes limit (outer.length + 1) new middle given later →
      Completes limit (outer.length + 1) frame store (first ++ given) later) :
    Finishes limit (frame :: outer) store (first ++ given) later := by
  cases finishes with
  | outermost completes => exact .outermost (own completes)
  | inner completes rest =>
    rw [← List.append_assoc]
    exact .inner (own completes) rest

theorem completes_finished (missing : store.arena.child? frame.list frame.position = none)
    (last : frame.remaining = []) : Completes limit depth frame store [] store := by
  refine ⟨[], store, [], rfl, .finished missing, ?_⟩
  rw [last]
  exact .noTurn

theorem expands_of_completes {list : NodeId}
    (completes : Completes limit depth (.atStart list) store given later) :
    Expands limit depth (.list list 0) store given later := by
  rcases completes with ⟨first, middle, more, rfl, expands, turns⟩
  cases turns
  rwa [List.append_nil]

theorem completes_turn {loop : NodeId} {position : Nat} {counter stop : Int64}
    (missing : store.arena.child? loop position = none) (less : counter < stop)
    (completes : Completes limit depth ⟨loop, 0, some ⟨counter + 1, stop⟩⟩
      (store.bindCounter loop (counter + 1)) given later) :
    Completes limit depth ⟨loop, position, some ⟨counter, stop⟩⟩ store given later := by
  rcases completes with ⟨first, middle, more, rfl, expands, turns⟩
  refine ⟨[], store, first ++ more, rfl, .finished missing, ?_⟩
  rw [Frame.remaining_turn, tail_counters_of_lt less]
  exact .turn expands turns

section Child

variable {child : NodeId} (found : store.arena.child? frame.list frame.position = some child)
include found

theorem completes_ordinary (met : store.encounter limit depth child = .ordinary)
    (completes : Completes limit depth frame.skip store given later) :
    Completes limit depth frame store (child :: given) later := by
  rcases completes with ⟨first, middle, more, rfl, expands, turns⟩
  exact ⟨child :: first, middle, more, rfl, .ordinary found met expands, turns⟩

theorem completes_nothing (met : store.encounter limit depth child = .nothing middle)
    (completes : Completes limit depth frame.skip middle given later) :
    Completes limit depth frame store given later := by
  rcases completes with ⟨first, inner, more, rfl, expands, turns⟩
  exact ⟨first, inner, more, rfl, .nothing found met expands, turns⟩

theorem completes_loop {start stop : Int64} {begun : Store}
    (enters : store.encounter limit depth child = .loop start stop begun)
    (body : Completes limit (depth + 1) ⟨child, 0, some ⟨start, stop⟩⟩
      (begun.bindCounter child start) first middle)
    (completes : Completes limit depth frame.skip middle given later) :
    Completes limit depth frame store (first ++ given) later := by
  rcases body with ⟨bodyFirst, bodyMiddle, bodyMore, rfl, bodyExpands, bodyTurns⟩
  rcases completes with ⟨own, inner, more, rfl, expands, turns⟩
  have allTurns := Expands.turn bodyExpands bodyTurns
  have values : start :: Frame.remaining ⟨child, 0, some ⟨start, stop⟩⟩ = counters start stop :=
    (counters_of_not_lt (not_lt_of_encounter limit enters)).symm
  rw [values] at allTurns
  refine ⟨(bodyFirst ++ bodyMore) ++ own, inner, more, ?_,
    .loop found enters allTurns expands, turns⟩
  rw [List.append_assoc _ own]

theorem completes_selected {list : NodeId} {begun : Store}
    (enters : store.encounter limit depth child = .selected list begun)
    (body : Completes limit (depth + 1) (.atStart list) begun first middle)
    (completes : Completes limit depth frame.skip middle given later) :
    Completes limit depth frame store (first ++ given) later := by
  rcases completes with ⟨own, inner, more, rfl, expands, turns⟩
  refine ⟨first ++ own, inner, more, ?_,
    .selected found enters (expands_of_completes body) expands, turns⟩
  rw [List.append_assoc]

end Child

/-- A walk rests as it is: without frames, at the end of the last turn of the outermost frame, or at
an ordinary node. -/
theorem rests_cases {frames : List Frame} {settled : Walk}
    (rests : (store.over frames limit).step = (false, settled)) :
    settled = store.over frames limit ∧
      (frames = [] ∨
        (∃ top, frames = [top] ∧ store.arena.child? top.list top.position = none ∧
          top.remaining = []) ∨
        ∃ top outer child, frames = top :: outer ∧
          store.arena.child? top.list top.position = some child ∧
          store.encounter limit (outer.length + 1) child = .ordinary) := by
  cases frames with
  | nil =>
    cases rests
    exact ⟨rfl, .inl rfl⟩
  | cons top outer =>
    cases found : store.arena.child? top.list top.position with
    | none =>
      rcases remaining_cases top with last | ⟨loop, position, counter, stop, rfl, less⟩
      · rw [step_leave limit top outer found last] at rests
        cases outer with
        | nil =>
          cases rests
          exact ⟨rfl, .inr (.inl ⟨top, rfl, found, last⟩)⟩
        | cons below outer => cases rests
      · rw [step_turn limit outer found less] at rests
        cases rests
    | some child =>
      rw [step_child limit top outer found] at rests
      cases met : store.encounter limit (outer.length + 1) child with
      | ordinary =>
        rw [met] at rests
        cases rests
        exact ⟨rfl, .inr (.inr ⟨top, outer, child, rfl, found, met⟩)⟩
      | nothing | loop | selected =>
        rw [met] at rests
        cases rests

theorem finishes_of_runs {walk : Walk} {final : Store} (runs : Runs walk given final)
    {frames : List Frame} (same : walk = store.over frames limit) :
    Finishes limit frames store given final := by
  induction runs generalizing store frames with
  | ended rests ends =>
    subst same
    rcases rests_cases rests with ⟨rfl, rfl | ⟨top, rfl, missing, last⟩ |
      ⟨top, outer, child, rfl, found, -⟩⟩
    · exact .none
    · exact .outermost (completes_finished missing last)
    · cases found.symm.trans ends
  | moved moves rest induction =>
    subst same
    cases frames with
    | nil => cases moves
    | cons top outer =>
      cases found : store.arena.child? top.list top.position with
      | none =>
        rcases remaining_cases top with last | ⟨loop, position, counter, stop, rfl, less⟩
        · rw [step_leave limit top outer found last] at moves
          cases outer with
          | nil => cases moves
          | cons below outer =>
            cases moves
            exact .inner (completes_finished found last) (induction rfl)
        · rw [step_turn limit outer found less] at moves
          cases moves
          exact (induction rfl).before [] (completes_turn found less)
      | some child =>
        rw [step_child limit top outer found] at moves
        cases met : store.encounter limit (outer.length + 1) child with
        | ordinary =>
          rw [met] at moves
          cases moves
        | nothing middle =>
          rw [met] at moves
          cases moves
          exact (induction rfl).before [] (completes_nothing found met)
        | loop start stop middle =>
          rw [met] at moves
          cases moves
          cases induction rfl with
          | inner body rest => exact rest.before _ (completes_loop found met body)
        | selected list middle =>
          rw [met] at moves
          cases moves
          cases induction rfl with
          | inner body rest => exact rest.before _ (completes_selected found met body)
  | handed rests here rest induction =>
    subst same
    rcases rests_cases rests with ⟨rfl, rfl | ⟨top, rfl, missing, -⟩ |
      ⟨top, outer, child, rfl, found, met⟩⟩
    · cases here
    · cases missing.symm.trans here
    · cases found.symm.trans here
      exact (induction rfl).before [_] (completes_ordinary found met)

end Finishes

/-! ## The two agree -/

section

variable (arena : Arena) (table : Option SymbolTable) {root : NodeId} (limit : DepthLimit)

theorem start_of_live (live : arena.contains root = true) :
    start arena table root limit = Store.over ⟨arena, table, #[]⟩ [.atStart root] limit := by
  simp only [start, live, ↓reduceIte]
  rfl

theorem start_of_stale (stale : arena.contains root = false) :
    start arena table root limit = Store.over ⟨arena, table, #[]⟩ [] limit := by
  simp only [start, stale]
  rfl

variable {arena table limit} {given : List NodeId} {later : Store}

theorem drains_of_expands
    (expands : Expands limit 1 (.list root 0) ⟨arena, table, #[]⟩ given later) :
    Drains (start arena table root limit) given later := by
  cases live : arena.contains root with
  | true =>
    rw [start_of_live arena table limit live, ← List.append_nil given]
    apply drains_of_runs
    apply carries_of_expands expands rfl
    intro finish missing
    exact .ended (step_leave limit ⟨root, finish, none⟩ [] missing rfl) missing
  | false =>
    have missing := Arena.child?_of_stale (Arena.live?_of_not_contains live) 0
    rw [start_of_stale arena table limit live]
    cases expands with
    | finished => exact drains_of_runs (.ended (step_nil limit _) rfl)
    | ordinary found | nothing found | loop found | selected found =>
      rw [missing] at found
      cases found

theorem expands_of_drains (drains : Drains (start arena table root limit) given later) :
    Expands limit 1 (.list root 0) ⟨arena, table, #[]⟩ given later := by
  have runs := runs_of_drains drains
  cases live : arena.contains root with
  | true =>
    cases finishes_of_runs runs (start_of_live arena table limit live) with
    | outermost completes => exact expands_of_completes completes
  | false =>
    have missing := Arena.child?_of_stale (Arena.live?_of_not_contains live) 0
    cases finishes_of_runs runs (start_of_stale arena table limit live) with
    | none => exact .finished missing

end

/-- A walk over the children of a node hands out what the recursion hands out for its list, and
leaves the same arena and table. The values of a counter are laid down before the first turn and
none of them overflows. -/
theorem drains_start_iff (arena : Arena) (table : Option SymbolTable) (root : NodeId)
    (limit : DepthLimit) (given : List NodeId) (later : Store) :
    (Drains (start arena table root limit) given later ↔
      Expands limit 1 (.list root 0) ⟨arena, table, #[]⟩ given later) ∧
    ∀ first last : Int64, (counters first last).map Int64.toInt =
      (List.range (last.toInt - first.toInt + 1).toNat).map fun (turn : Nat) =>
        first.toInt + turn :=
  ⟨⟨expands_of_drains, drains_of_expands⟩, toInt_counters⟩

end Walk
end RecordGraph
