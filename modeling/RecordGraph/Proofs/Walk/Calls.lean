import RecordGraph.Proofs.Walk.Refinement

/-!
# Calls on a walk

A walk can be asked for its current node, be moved past it, or both. Before it does any of these it
takes steps until it rests, and these steps evaluate the control nodes on the way. A walk that rests
has nothing left to evaluate, so to look at it once more changes nothing.

What holds of a walk at first, and keeps holding with each step and each move past a node, holds
whenever a call is answered.
-/

namespace RecordGraph

/-! ## Loops and conditionals that are met -/

namespace Store

theorem meetLoop_cases (store : Store) (limit : DepthLimit) (depth : Nat) (loop : NodeId) :
    (∃ new, store.meetLoop limit depth loop = .nothing (store.note new)) ∨
      ∃ start stop new, ¬ stop < start ∧
        store.meetLoop limit depth loop = .loop start stop (store.note new) := by
  unfold meetLoop
  split
  · exact .inl ⟨[], by rw [store.note_nil]⟩
  · simp only
    split
    · split
      · exact .inl ⟨_, rfl⟩
      · rename_i order
        split
        · exact .inr ⟨_, _, _, order, rfl⟩
        · exact .inl ⟨_, by rw [store.note_note]⟩
    · exact .inl ⟨_, rfl⟩

theorem meetConditional_cases (store : Store) (limit : DepthLimit) (depth : Nat) (node : NodeId) :
    (∃ new, store.meetConditional limit depth node = .nothing ((store.evaluated node).note new)) ∨
      ∃ list, (Evaluation.evaluate store.table store.arena node).result = some list ∧
        store.meetConditional limit depth node = .selected list (store.evaluated node) := by
  unfold meetConditional
  simp only
  split
  · rename_i chosen
    split
    · exact .inr ⟨_, chosen, rfl⟩
    · exact .inl ⟨_, rfl⟩
  · exact .inl ⟨[], by rw [note_nil]; rfl⟩

end Store

/-! ## Visits and calls -/

structure Visit where
  frames : List Frame
  node : NodeId
deriving DecidableEq, Repr

namespace Walk

def visit? (walk : Walk) : Option Visit :=
  match walk.here with
  | some node =>
    if (walk.arena.kind? node).any Kind.isControl then some ⟨walk.frames.list, node⟩ else none
  | none => none

/-- The control nodes that are evaluated before the walk rests, one after the other. -/
def visits : Nat → Walk → List Visit
  | 0, _ => []
  | rounds + 1, walk =>
    match walk.step with
    | (true, later) => walk.visit?.toList ++ visits rounds later
    | (false, _) => []

inductive Call where
  | current
  | advance
  | next
deriving DecidableEq, Repr

/-- What a call comes to: its answer, the visits up to now, and the walk as it is then. -/
structure Reply where
  answer : Option NodeId
  visits : List Visit
  walk : Walk

def reply (rounds : Nat) (walk : Walk) (earlier : List Visit) (call : Call) : Option Reply :=
  let visits := earlier ++ walk.visits rounds
  match call with
  | .current => (walk.current rounds).map fun (answer, later) => ⟨answer, visits, later⟩
  | .advance => (walk.advance rounds).map fun later => ⟨none, visits, later⟩
  | .next => (walk.next rounds).map fun (answer, later) => ⟨answer, visits, later⟩

def replies (rounds : Nat) : Walk → List Visit → List Call → Option (List Reply)
  | _, _, [] => some []
  | walk, earlier, call :: calls =>
    (walk.reply rounds earlier call).bind fun first =>
      (replies rounds first.walk first.visits calls).map (first :: ·)

/-! ## Steps and visits -/

inductive Moves (limit : DepthLimit) (store : Store) :
    List Frame → Option Visit → Bool × Walk → Prop where
  | rests (frames : List Frame) : Moves limit store frames none (false, store.over frames limit)
  | turns {outer : List Frame} {loop : NodeId} {position : Nat} {counter stop : Int64}
      (less : counter < stop) :
      Moves limit store (⟨loop, position, some ⟨counter, stop⟩⟩ :: outer) none
        (true, (store.bindCounter loop (counter + 1)).over
          (⟨loop, 0, some ⟨counter + 1, stop⟩⟩ :: outer) limit)
  | leaves (top below : Frame) (outer : List Frame) :
      Moves limit store (top :: below :: outer) none
        (true, store.over (below.skip :: outer) limit)
  | passes {top : Frame} {outer : List Frame} {loop : NodeId} (new : List Failure)
      (iterates : store.arena.kind? loop = some .iterator) :
      Moves limit store (top :: outer) (some ⟨top :: outer, loop⟩)
        (true, (store.note new).over (top.skip :: outer) limit)
  | enters {top : Frame} {outer : List Frame} {loop : NodeId} {start stop : Int64}
      (new : List Failure) (found : store.arena.child? top.list top.position = some loop)
      (iterates : store.arena.kind? loop = some .iterator) (order : ¬ stop < start) :
      Moves limit store (top :: outer) (some ⟨top :: outer, loop⟩)
        (true, ((store.note new).bindCounter loop start).over
          (⟨loop, 0, some ⟨start, stop⟩⟩ :: top :: outer) limit)
  | unselected {top : Frame} {outer : List Frame} {child : NodeId} (new : List Failure)
      (found : store.arena.child? top.list top.position = some child)
      (conditional : (store.arena.kind? child).any Kind.isConditional = true) :
      Moves limit store (top :: outer) (some ⟨top :: outer, child⟩)
        (true, ((store.evaluated child).note new).over (top.skip :: outer) limit)
  | selected {top : Frame} {outer : List Frame} {child list : NodeId}
      (found : store.arena.child? top.list top.position = some child)
      (conditional : (store.arena.kind? child).any Kind.isConditional = true)
      (chosen : (Evaluation.evaluate store.table store.arena child).result = some list) :
      Moves limit store (top :: outer) (some ⟨top :: outer, child⟩)
        (true, (store.evaluated child).over (.atStart list :: top :: outer) limit)

theorem moves_child (store : Store) (limit : DepthLimit) {top : Frame} {outer : List Frame}
    {child : NodeId} (found : store.arena.child? top.list top.position = some child) :
    Moves limit store (top :: outer)
      (if (store.arena.kind? child).any Kind.isControl then some ⟨top :: outer, child⟩ else none)
      (after limit top outer store child (store.encounter limit (outer.length + 1) child)) := by
  unfold Store.encounter
  have conditionally (conditional : (store.arena.kind? child).any Kind.isConditional = true) :
      Moves limit store (top :: outer) (some ⟨top :: outer, child⟩)
        (after limit top outer store child
          (store.meetConditional limit (outer.length + 1) child)) := by
    rcases store.meetConditional_cases limit (outer.length + 1) child with
      ⟨new, same⟩ | ⟨list, chosen, same⟩
    · rw [same]
      exact .unselected new found conditional
    · rw [same]
      exact .selected found conditional chosen
  cases known : store.arena.kind? child with
  | none => exact .rests _
  | some kind =>
    cases kind with
    | iterator =>
      rcases store.meetLoop_cases limit (outer.length + 1) child with
        ⟨new, same⟩ | ⟨start, stop, new, order, same⟩
      · simp only [same]
        exact .passes new known
      · simp only [same]
        exact .enters new found known order
    | guard | switch | expr =>
      rw [known] at conditionally
      exact conditionally rfl
    | _ => exact .rests _

theorem visit?_over (store : Store) (limit : DepthLimit) (top : Frame) (outer : List Frame) :
    (store.over (top :: outer) limit).visit? =
      match store.arena.child? top.list top.position with
      | some child =>
        if (store.arena.kind? child).any Kind.isControl then some ⟨top :: outer, child⟩ else none
      | none => none := rfl

theorem moves_over (store : Store) (limit : DepthLimit) (frames : List Frame) :
    Moves limit store frames (store.over frames limit).visit? (store.over frames limit).step := by
  cases frames with
  | nil => exact .rests []
  | cons top outer =>
    rw [visit?_over]
    cases found : store.arena.child? top.list top.position with
    | none =>
      rcases remaining_cases top with last | ⟨loop, position, counter, stop, rfl, less⟩
      · rw [step_leave limit top outer found last]
        cases outer with
        | nil => exact .rests [top]
        | cons below outer => exact .leaves top below outer
      · rw [step_turn limit outer found less]
        exact .turns less
    | some child =>
      rw [step_child limit top outer found]
      exact moves_child store limit found

theorem moves_step (walk : Walk) :
    Moves walk.limit walk.store walk.frames.list walk.visit? walk.step := by
  have moves := moves_over walk.store walk.limit walk.frames.list
  rwa [over_store] at moves

section

variable {walk later settled : Walk} {visit : Visit} {rounds : Nat}

theorem here_of_visit (stands : walk.visit? = some visit) :
    walk.here = some visit.node ∧ visit.frames = walk.frames.list ∧
      (walk.arena.kind? visit.node).any Kind.isControl = true := by
  unfold visit? at stands
  split at stands
  · split at stands
    · rename_i found control
      cases stands
      exact ⟨found, rfl, control⟩
    · cases stands
  · cases stands

theorem step_of_visit (stands : walk.visit? = some visit) :
    walk.step = (true, if walk.arena.kind? visit.node = some .iterator then
      walk.enterLoop visit.node else walk.enterSelected visit.node) := by
  rcases here_of_visit stands with ⟨found, -, control⟩
  rcases Option.bind_eq_some_iff.mp found with ⟨top, standing, child⟩
  simp only [step, standing, child]
  cases known : walk.arena.kind? visit.node with
  | none =>
    rw [known] at control
    cases control
  | some kind =>
    rw [known] at control
    cases kind <;> first | rfl | cases control

/-- A step elsewhere evaluates nothing: it may bind the counter of a loop to its next value. -/
theorem store_of_no_visit (stands : walk.visit? = none) :
    walk.step.2.store = walk.store ∨
      ∃ loop counter, walk.step.2.store = walk.store.bindCounter loop counter := by
  have moves := moves_step walk
  generalize walk.frames.list = frames at moves
  rw [stands] at moves
  generalize walk.step = after at moves ⊢
  cases moves with
  | rests | leaves => exact .inl rfl
  | @turns _ loop _ counter => exact .inr ⟨loop, counter + 1, rfl⟩

theorem visit?_of_rests (rests : walk.step = (false, walk)) : walk.visit? = none := by
  cases stands : walk.visit? with
  | none => rfl
  | some visit => cases rests.symm.trans (step_of_visit stands)

theorem visits_of_rests (rests : walk.step = (false, walk)) (rounds : Nat) :
    walk.visits rounds = [] := by
  cases rounds with
  | zero => rfl
  | succ rounds => simp only [visits, rests]

theorem visits_of_moves (moves : walk.step = (true, later)) (rounds : Nat) :
    walk.visits (rounds + 1) = walk.visit?.toList ++ later.visits rounds := by
  simp only [visits, moves]

end

/-! ## Replies -/

section

variable (walk : Walk) (rounds : Nat) (earlier : List Visit)

def rested (settled : Walk) (visits : List Visit) : Call → Reply
  | .current => ⟨settled.here, visits, settled⟩
  | .advance => ⟨none, visits, settled.skip⟩
  | .next => ⟨settled.here, visits, if settled.here.isSome then settled.skip else settled⟩

theorem reply_eq (call : Call) : walk.reply rounds earlier call =
    (walk.settle rounds).map fun settled =>
      settled.rested (earlier ++ walk.visits rounds) call := by
  unfold reply
  cases call with
  | current => simp only [current, Option.map_map, Function.comp_def, rested]
  | advance => simp only [advance, Option.map_map, Function.comp_def, rested]
  | next =>
    simp only [next_eq, Option.map_map, Function.comp_def, rested]

theorem replies_current (call : Call) (calls : List Call) :
    (walk.replies rounds earlier (.current :: call :: calls)).map List.tail =
      walk.replies rounds earlier (call :: calls) := by
  simp only [replies, reply_eq walk]
  cases ran : walk.settle rounds with
  | none => rfl
  | some settled =>
    have nothing : settled.visits rounds = [] := visits_of_rests (rests_of_settle ran) rounds
    simp only [Option.map_some, Option.bind_some, rested, reply_eq settled, settle_again ran,
      nothing, List.append_nil, Option.map_map, Function.comp_def, List.tail_cons]

theorem replies_look (before : List Call) (call : Call) (after : List Call) :
    (walk.replies rounds earlier (before ++ .current :: call :: after)).map
        (·.eraseIdx before.length) =
      walk.replies rounds earlier (before ++ call :: after) := by
  induction before generalizing walk earlier with
  | nil =>
    simpa only [List.nil_append, List.length_nil, List.eraseIdx_zero] using
      walk.replies_current rounds earlier call after
  | cons first before induction =>
    simp only [List.cons_append, replies]
    cases walk.reply rounds earlier first with
    | none => rfl
    | some reply =>
      rw [Option.bind_some, Option.bind_some, ← induction, Option.map_map, Option.map_map]
      rfl

end

/-! ## What holds at every reply -/

section

variable (holds : List Visit → Walk → Prop)
  (step : ∀ {visits walk later}, holds visits walk → walk.step = (true, later) →
    holds (visits ++ walk.visit?.toList) later)
  {rounds : Nat} {walk settled : Walk} {earlier : List Visit}

include step

theorem holds_of_settle (first : holds earlier walk) (ran : walk.settle rounds = some settled) :
    holds (earlier ++ walk.visits rounds) settled := by
  induction rounds generalizing walk earlier with
  | zero => cases ran
  | succ rounds induction =>
    rcases stepped : walk.step with ⟨moves, later⟩
    cases moves with
    | true =>
      rw [settle_of_moves stepped] at ran
      rw [visits_of_moves stepped, ← List.append_assoc]
      exact induction (step first stepped) ran
    | false =>
      cases eq_of_rests stepped
      rw [settle_of_rests stepped] at ran
      cases ran
      rwa [visits_of_rests stepped, List.append_nil]

variable (skip : ∀ {visits walk}, holds visits walk → holds visits walk.skip)

include skip

theorem holds_of_reply {call : Call} {reply : Reply} (first : holds earlier walk)
    (ran : walk.reply rounds earlier call = some reply) : holds reply.visits reply.walk := by
  rw [reply_eq] at ran
  rcases Option.map_eq_some_iff.mp ran with ⟨settled, settles, rfl⟩
  have kept := holds_of_settle holds step first settles
  cases call with
  | current => exact kept
  | advance => exact skip kept
  | next =>
    simp only [rested]
    split
    · exact skip kept
    · exact kept

/-- What holds at first, and keeps holding with each step and each move past a node, holds at every
reply, with the visits up to then. -/
theorem holds_of_replies {calls : List Call} {all : List Reply} (first : holds earlier walk)
    (ran : walk.replies rounds earlier calls = some all) :
    ∀ reply ∈ all, holds reply.visits reply.walk := by
  induction calls generalizing walk earlier all with
  | nil =>
    cases ran
    exact nofun
  | cons call calls induction =>
    rcases Option.bind_eq_some_iff.mp ran with ⟨reply, given, rest⟩
    rcases Option.map_eq_some_iff.mp rest with ⟨others, later, rfl⟩
    have kept := holds_of_reply holds step skip first given
    exact List.forall_mem_cons.mpr ⟨kept, induction kept later⟩

end

end Walk
end RecordGraph
