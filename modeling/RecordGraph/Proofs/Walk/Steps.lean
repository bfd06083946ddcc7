import RecordGraph.Proofs.Walk.Expansion

/-!
# What a step of a walk can do

A walk over a store rests, passes a child, enters a loop or a list that was selected, begins the
next turn of a loop, or leaves a list. A step at a child does what the child means to the recursion.
-/

namespace RecordGraph

def Store.over (store : Store) (frames : List Frame) (limit : DepthLimit) : Walk :=
  ⟨store.arena, store.table, ⟨frames, frames.length, rfl⟩, limit, store.failures⟩

def Frame.remaining (frame : Frame) : List Int64 :=
  match frame.turn with
  | some ⟨counter, stop⟩ => (counters counter stop).tail
  | none => []

theorem Frame.remaining_turn (loop : NodeId) (position : Nat) (counter stop : Int64) :
    Frame.remaining ⟨loop, position, some ⟨counter, stop⟩⟩ = (counters counter stop).tail := rfl

theorem remaining_cases (frame : Frame) : frame.remaining = [] ∨
    ∃ loop position counter stop,
      frame = ⟨loop, position, some ⟨counter, stop⟩⟩ ∧ counter < stop := by
  rcases frame with ⟨loop, position, turn⟩
  cases turn with
  | none => exact .inl rfl
  | some turn =>
    by_cases less : turn.counter < turn.stop
    · exact .inr ⟨loop, position, turn.counter, turn.stop, rfl, less⟩
    · exact .inl (tail_counters_of_not_lt less)

namespace Walk

def store (walk : Walk) : Store := ⟨walk.arena, walk.table, walk.failures⟩

section Steps

variable {store : Store} (limit : DepthLimit) (top : Frame) (outer : List Frame)

theorem bindCounter_over (store : Store) (frames : List Frame) (loop : NodeId) (counter : Int64) :
    (store.over frames limit).bindCounter loop counter =
      (store.bindCounter loop counter).over frames limit := by
  obtain ⟨arena, table, failures⟩ := store
  cases table <;> rfl

theorem enter_over (store : Store) (frame : Frame) : (store.over (top :: outer) limit).enter frame =
    if limit.allows (outer.length + 1 + 1) then (true, store.over (frame :: top :: outer) limit)
    else (false, (store.note [.expansionTooDeep]).over (top.skip :: outer) limit) := by
  unfold enter
  rfl

theorem step_nil (store : Store) :
    (store.over [] limit).step = (false, store.over [] limit) := rfl

theorem step_missing (missing : store.arena.child? top.list top.position = none) :
    (store.over (top :: outer) limit).step = (store.over (top :: outer) limit).finishFrame := by
  have child : (store.over (top :: outer) limit).arena.child? top.list top.position = none :=
    missing
  simp only [step, Store.over, Frames.top?, List.head?_cons] at child ⊢
  rw [child]

omit top in
theorem step_turn {loop : NodeId} {position : Nat} {counter stop : Int64}
    (missing : store.arena.child? loop position = none) (less : counter < stop) :
    (store.over (⟨loop, position, some ⟨counter, stop⟩⟩ :: outer) limit).step =
      (true, (store.bindCounter loop (counter + 1)).over
        (⟨loop, 0, some ⟨counter + 1, stop⟩⟩ :: outer) limit) := by
  rw [step_missing limit _ outer missing, ← bindCounter_over]
  simp only [finishFrame, Store.over, Frames.top?, List.head?_cons, less, ↓reduceIte]
  rfl

theorem step_leave (missing : store.arena.child? top.list top.position = none)
    (last : top.remaining = []) : (store.over (top :: outer) limit).step =
      finishFrame.leave (store.over (top :: outer) limit) := by
  rw [step_missing limit top outer missing]
  obtain ⟨list, position, turn⟩ := top
  cases turn with
  | none => rfl
  | some turn =>
    obtain ⟨counter, stop⟩ := turn
    have notLess : ¬ counter < stop := by
      intro less
      have none : (counters counter stop).tail = [] := last
      rw [tail_counters_of_lt less] at none
      cases none
    simp only [finishFrame, Store.over, Frames.top?, List.head?_cons, notLess, ↓reduceIte]

def moveAt (walk : Walk) (child : NodeId) : Bool × Walk :=
  match walk.arena.kind? child with
  | some .iterator => (true, walk.enterLoop child)
  | some kind => if kind.isConditional then (true, walk.enterSelected child) else (false, walk)
  | none => (false, walk)

def after (store : Store) (child : NodeId) : Encounter → Bool × Walk
  | .ordinary => (false, store.over (top :: outer) limit)
  | .nothing later => (true, later.over (top.skip :: outer) limit)
  | .loop start stop later =>
    (true, (later.bindCounter child start).over
      (⟨child, 0, some ⟨start, stop⟩⟩ :: top :: outer) limit)
  | .selected list later => (true, later.over (.atStart list :: top :: outer) limit)

theorem enterLoop_over (store : Store) (loop : NodeId) :
    (true, (store.over (top :: outer) limit).enterLoop loop) =
      after limit top outer store loop (store.meetLoop limit (outer.length + 1) loop) := by
  unfold enterLoop Store.meetLoop
  have sameName : (store.over (top :: outer) limit).arena = store.arena := rfl
  have sameBound : (store.over (top :: outer) limit).bound loop = store.bound loop := rfl
  have sameFailures : (store.over (top :: outer) limit).boundFailures loop =
    store.boundFailures loop := rfl
  rw [sameName, sameBound, sameFailures]
  split
  · rfl
  · simp only
    have noted : (store.over (top :: outer) limit).note
        (store.boundFailures loop .start ++ store.boundFailures loop .stop) =
      (store.note (store.boundFailures loop .start ++ store.boundFailures loop .stop)).over
        (top :: outer) limit := rfl
    rw [noted]
    cases store.bound loop .start with
    | none => rfl
    | some start =>
      cases store.bound loop .stop with
      | none => rfl
      | some stop =>
        simp only
        split
        · rfl
        · rw [enter_over]
          cases limit.allows (outer.length + 1 + 1) with
          | true => exact congrArg (Prod.mk true) (bindCounter_over ..)
          | false => rfl

theorem enterSelected_over (store : Store) (node : NodeId) :
    (true, (store.over (top :: outer) limit).enterSelected node) =
      after limit top outer store node (store.meetConditional limit (outer.length + 1) node) := by
  obtain ⟨arena, table, failures⟩ := store
  unfold enterSelected Store.meetConditional
  simp only [Store.over]
  generalize Evaluation.evaluate table arena node = effect
  obtain ⟨result, laterTable, laterArena, new⟩ := effect
  cases result with
  | none => rfl
  | some list =>
    let later : Store := ⟨laterArena, laterTable, failures ++ new⟩
    change (true, ((later.over (top :: outer) limit).enter (.atStart list)).2) = _
    rw [enter_over]
    cases limit.allows (outer.length + 1 + 1) <;> rfl

theorem step_child {child : NodeId}
    (found : store.arena.child? top.list top.position = some child) :
    (store.over (top :: outer) limit).step =
      after limit top outer store child (store.encounter limit (outer.length + 1) child) := by
  have same : (store.over (top :: outer) limit).step =
      (store.over (top :: outer) limit).moveAt child := by
    have here : (store.over (top :: outer) limit).arena.child? top.list top.position =
        some child := found
    simp only [step, Store.over, Frames.top?, List.head?_cons] at here ⊢
    rw [here]
    rfl
  have kinds : (store.over (top :: outer) limit).arena = store.arena := rfl
  rw [same]
  unfold moveAt Store.encounter
  rw [kinds]
  cases store.arena.kind? child with
  | none => rfl
  | some kind =>
    cases kind with
    | iterator => exact enterLoop_over ..
    | guard | switch | expr => exact enterSelected_over ..
    | _ => rfl

theorem not_lt_of_encounter {depth : Nat} {child : NodeId} {start stop : Int64} {later : Store}
    (enters : store.encounter limit depth child = .loop start stop later) : ¬ stop < start := by
  have met := store.met_encounter limit depth child
  rw [enters] at met
  cases met
  assumption

end Steps

/-! ## All steps -/

inductive Steps (limit : DepthLimit) (store : Store) :
    List Frame → Store → List Frame → Prop where
  | rested (frames : List Frame) : Steps limit store frames store frames
  | passed {top : Frame} {outer : List Frame} (new : List Failure) :
      Steps limit store (top :: outer) (store.note new) (top.skip :: outer)
  | entered {top : Frame} {outer : List Frame} {child : NodeId} {start stop : Int64}
      (new : List Failure) (found : store.arena.child? top.list top.position = some child)
      (iterates : store.arena.kind? child = some .iterator)
      (first : store.bound child .start = some start) (last : store.bound child .stop = some stop)
      (order : ¬ stop < start) (allowed : limit.allows ((top :: outer).length + 1) = true) :
      Steps limit store (top :: outer) ((store.note new).bindCounter child start)
        (⟨child, 0, some ⟨start, stop⟩⟩ :: top :: outer)
  | unselected {top : Frame} {outer : List Frame} (child : NodeId) (new : List Failure) :
      Steps limit store (top :: outer) ((store.evaluated child).note new) (top.skip :: outer)
  | selected {top : Frame} {outer : List Frame} {child list : NodeId}
      (chosen : (Evaluation.evaluate store.table store.arena child).result = some list)
      (allowed : limit.allows ((top :: outer).length + 1) = true) :
      Steps limit store (top :: outer) (store.evaluated child) (.atStart list :: top :: outer)
  | turned {outer : List Frame} {loop : NodeId} {position : Nat} {counter stop : Int64}
      (less : counter < stop) :
      Steps limit store (⟨loop, position, some ⟨counter, stop⟩⟩ :: outer)
        (store.bindCounter loop (counter + 1)) (⟨loop, 0, some ⟨counter + 1, stop⟩⟩ :: outer)
  | left {top below : Frame} {outer : List Frame} :
      Steps limit store (top :: below :: outer) store (below.skip :: outer)

theorem steps_child (store : Store) (limit : DepthLimit) {top : Frame} {outer : List Frame}
    {child : NodeId} (found : store.arena.child? top.list top.position = some child) :
    ∃ after frames, (store.over (top :: outer) limit).step.2 = after.over frames limit ∧
      Steps limit store (top :: outer) after frames := by
  have met := store.met_encounter limit (outer.length + 1) child
  rw [step_child limit top outer found]
  generalize store.encounter limit (outer.length + 1) child = meaning at met ⊢
  cases met with
  | ordinary => exact ⟨_, _, rfl, .rested _⟩
  | passed new => exact ⟨_, _, rfl, .passed new⟩
  | loop new iterates first last order allowed =>
    exact ⟨_, _, rfl, .entered new found iterates first last order allowed⟩
  | unselected new => exact ⟨_, _, rfl, .unselected child new⟩
  | selected chosen allowed => exact ⟨_, _, rfl, .selected chosen allowed⟩

theorem steps_missing (store : Store) (limit : DepthLimit) {top : Frame} (outer : List Frame)
    (missing : store.arena.child? top.list top.position = none) :
    ∃ after frames, (store.over (top :: outer) limit).step.2 = after.over frames limit ∧
      Steps limit store (top :: outer) after frames := by
  rcases remaining_cases top with last | ⟨loop, position, counter, stop, rfl, less⟩
  · rw [step_leave limit top outer missing last]
    cases outer with
    | nil => exact ⟨_, _, rfl, .rested _⟩
    | cons below outer => exact ⟨_, _, rfl, .left⟩
  · rw [step_turn limit outer missing less]
    exact ⟨_, _, rfl, .turned less⟩

theorem over_store (walk : Walk) : walk.store.over walk.frames.list walk.limit = walk := by
  rcases walk with ⟨arena, table, ⟨frames, count, rfl⟩, limit, failures⟩
  rfl

theorem frames_start (arena : Arena) (table : Option SymbolTable) (root : NodeId)
    (limit : DepthLimit) : (start arena table root limit).frames.list =
      if arena.contains root then [.atStart root] else [] := by
  unfold start
  cases arena.contains root <;> rfl

/-- The only frame at the start is one at the start of the root, if the root is live. -/
theorem forall_mem_start {arena : Arena} {table : Option SymbolTable} {root : NodeId}
    {limit : DepthLimit} {holds : Frame → Prop}
    (first : arena.contains root = true → holds (.atStart root)) :
    ∀ frame ∈ (start arena table root limit).frames.list, holds frame := by
  rw [frames_start]
  split
  · rename_i live
    exact List.forall_mem_singleton.mpr (first live)
  · exact List.forall_mem_nil _

/-- What does not depend on positions holds of all frames when the walk steps past a node. -/
theorem forall_mem_skip {walk : Walk} {holds : Frame → Prop}
    (kept : ∀ frame, holds frame → holds frame.skip)
    (all : ∀ frame ∈ walk.frames.list, holds frame) :
    ∀ frame ∈ walk.skip.frames.list, holds frame := by
  rcases walk with ⟨arena, table, ⟨frames, count, same⟩, limit, failures⟩
  cases frames with
  | nil => exact all
  | cons top below =>
    exact List.forall_mem_cons.mpr ((List.forall_mem_cons.mp all).imp_left (kept top))

theorem step_cases (walk : Walk) :
    ∃ after frames, walk.step.2 = after.over frames walk.limit ∧
      Steps walk.limit walk.store walk.frames.list after frames := by
  have same := over_store walk
  generalize walk.store = store at same ⊢
  generalize walk.frames.list = frames at same ⊢
  generalize walk.limit = limit at same ⊢
  rw [← same]
  cases frames with
  | nil => exact ⟨store, [], rfl, .rested []⟩
  | cons top outer =>
    cases found : store.arena.child? top.list top.position with
    | none => exact steps_missing store limit outer found
    | some child => exact steps_child store limit found

/-! ## Walks at rest -/

section

variable {walk later settled : Walk} {rounds : Nat}

theorem eq_of_leave (ends : finishFrame.leave walk = (false, settled)) : settled = walk := by
  unfold finishFrame.leave at ends
  split at ends
  · cases ends
  · cases ends
    rfl

theorem eq_of_rests (rests : walk.step = (false, settled)) : settled = walk := by
  unfold step finishFrame at rests
  split at rests
  · cases rests
    rfl
  · split at rests
    · split at rests
      · split at rests
        · cases rests
        · exact eq_of_leave rests
      · exact eq_of_leave rests
    · split at rests
      · cases rests
      · split at rests
        · cases rests
        · cases rests
          rfl
      · cases rests
        rfl

theorem settle_of_rests (rests : walk.step = (false, walk)) (rounds : Nat) :
    walk.settle (rounds + 1) = some walk := by
  simp only [settle, rests]

theorem settle_of_moves (moves : walk.step = (true, later)) (rounds : Nat) :
    walk.settle (rounds + 1) = later.settle rounds := by
  simp only [settle, moves]

theorem rests_of_settle (ran : walk.settle rounds = some settled) :
    settled.step = (false, settled) := by
  induction rounds generalizing walk with
  | zero => cases ran
  | succ rounds induction =>
    rcases stepped : walk.step with ⟨moves, later⟩
    cases moves with
    | true =>
      rw [settle_of_moves stepped] at ran
      exact induction ran
    | false =>
      cases eq_of_rests stepped
      rw [settle_of_rests stepped] at ran
      cases ran
      exact stepped

theorem settle_again (ran : walk.settle rounds = some settled) :
    settled.settle rounds = some settled := by
  cases rounds with
  | zero => cases ran
  | succ rounds => exact settle_of_rests (rests_of_settle ran) rounds

theorem next_cases {given : Option NodeId} (ran : walk.next rounds = some (given, later)) :
    walk.current rounds = some (given, later) ∧ given = none ∨
      ∃ node middle, given = some node ∧ walk.current rounds = some (some node, middle) ∧
        middle.advance rounds = some later := by
  unfold next at ran
  split at ran
  · cases ran
  · rename_i looked
    cases ran
    exact .inl ⟨looked, rfl⟩
  · rename_i node middle looked
    rcases Option.map_eq_some_iff.mp ran with ⟨passed, advanced, same⟩
    cases same
    exact .inr ⟨node, middle, rfl, looked, advanced⟩

theorem next_eq (walk : Walk) (rounds : Nat) :
    walk.next rounds = (walk.settle rounds).map fun settled =>
      (settled.here, if settled.here.isSome then settled.skip else settled) := by
  unfold next current
  cases ran : walk.settle rounds with
  | none => rfl
  | some settled =>
    simp only [Option.map_some]
    cases found : settled.here with
    | none => rfl
    | some node => simp [advance, settle_again ran]

end

end Walk
end RecordGraph
