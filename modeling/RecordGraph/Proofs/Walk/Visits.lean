import Mathlib.Data.List.Lex
import Mathlib.Data.Prod.Lex
import RecordGraph.Proofs.Walk.Calls
import RecordGraph.Proofs.Walk.Termination

/-!
# Visits are not repeated

The frames tell how far a walk has come: the turn and the position in each of them, the outermost
first, in the order of a dictionary. Every step at a control node goes further. So a walk comes to
no place twice, and each control node on its way is evaluated once.
-/

namespace RecordGraph

def Frame.stage (frame : Frame) : ℤ ×ₗ ℕ :=
  toLex (((frame.turn.map (·.counter.toInt)).getD 0), frame.position)

theorem Frame.stage_lt_skip (frame : Frame) : frame.stage < frame.skip.stage :=
  Prod.Lex.toLex_lt_toLex.mpr (.inr ⟨rfl, Nat.lt_succ_self _⟩)

namespace Walk

def stages (frames : List Frame) : List (ℤ ×ₗ ℕ) :=
  (frames.map Frame.stage).reverse

theorem stages_cons (top : Frame) (outer : List Frame) :
    stages (top :: outer) = stages outer ++ [top.stage] := by
  rw [stages, List.map_cons, List.reverse_cons, stages]

theorem stages_lt_of_stage_lt {frame later : Frame} (further : frame.stage < later.stage)
    (outer : List Frame) : stages (frame :: outer) < stages (later :: outer) := by
  rw [stages_cons, stages_cons]
  exact List.Lex.append_left _ (.rel further) _

theorem stages_lt_enter (frames : List Frame) (inner : Frame) :
    stages frames < stages (inner :: frames) := by
  have longer : stages frames ++ [] < stages frames ++ [inner.stage] :=
    List.Lex.append_left _ .nil _
  rwa [List.append_nil, ← stages_cons] at longer

theorem stages_lt_leave (top below : Frame) (outer : List Frame) :
    stages (top :: below :: outer) < stages (below.skip :: outer) := by
  rw [stages_cons, stages_cons, stages_cons, List.append_assoc]
  exact List.Lex.append_left _ (.rel below.stage_lt_skip) _

theorem stages_lt_of_moves {walk later : Walk} (moved : walk.step = (true, later)) :
    stages walk.frames.list < stages later.frames.list := by
  have moves := moves_step walk
  generalize walk.frames.list = frames at moves ⊢
  generalize walk.visit? = due at moves
  generalize walk.step = after at moves moved
  cases moves with
  | rests => cases moved
  | @turns outer _ _ _ _ less =>
    cases moved
    refine stages_lt_of_stage_lt (Prod.Lex.toLex_lt_toLex.mpr (.inl ?_)) outer
    simp only [Option.map_some, Option.getD_some, toInt_succ less]
    exact Int.lt_succ _
  | leaves top below outer =>
    cases moved
    exact stages_lt_leave top below outer
  | @passes top outer | @unselected top outer =>
    cases moved
    exact stages_lt_of_stage_lt top.stage_lt_skip outer
  | enters | selected =>
    cases moved
    exact stages_lt_enter _ _

theorem stages_le_skip (walk : Walk) :
    stages walk.frames.list ≤ stages walk.skip.frames.list := by
  rcases walk with ⟨arena, table, ⟨frames, count, same⟩, limit, failures⟩
  cases frames with
  | nil => exact le_rfl
  | cons top outer => exact (stages_lt_of_stage_lt top.stage_lt_skip outer).le

structure Ordered (visits : List Visit) (walk : Walk) : Prop where
  rising : visits.Pairwise fun first second => stages first.frames < stages second.frames
  passed : ∀ visit ∈ visits, stages visit.frames < stages walk.frames.list

namespace Ordered

variable {visits : List Visit} {walk later : Walk}

theorem step (ordered : Ordered visits walk) (moves : walk.step = (true, later)) :
    Ordered (visits ++ walk.visit?.toList) later := by
  have further := stages_lt_of_moves moves
  have passed : ∀ visit ∈ visits, stages visit.frames < stages later.frames.list :=
    fun visit member => (ordered.passed visit member).trans further
  cases stands : walk.visit? with
  | none =>
    rw [Option.toList_none, List.append_nil]
    exact ⟨ordered.rising, passed⟩
  | some visit =>
    rcases here_of_visit stands with ⟨-, frames, -⟩
    rw [Option.toList_some]
    refine ⟨List.pairwise_append.mpr ⟨ordered.rising, List.pairwise_singleton _ _, ?_⟩, ?_⟩
    · intro earlier member other new
      cases List.mem_singleton.mp new
      rw [frames]
      exact ordered.passed earlier member
    · intro other member
      rcases List.mem_append.mp member with earlier | new
      · exact passed other earlier
      · cases List.mem_singleton.mp new
        rwa [frames]

theorem skip (ordered : Ordered visits walk) : Ordered visits walk.skip :=
  ⟨ordered.rising, fun visit member =>
    (ordered.passed visit member).trans_le walk.stages_le_skip⟩

theorem nodup (ordered : Ordered visits walk) : visits.Nodup := by
  refine ordered.rising.imp ?_
  rintro first second further rfl
  exact lt_irrefl _ further

end Ordered

/-- In every state of a walk, to look at it twice gives what it gives once, and leaves what it
leaves once. Calls that follow have the same replies whether the walk was looked at before them or
not, with the same visits up to each of them. On a visit the control node is evaluated once: no
visit is repeated, none is due when the walk rests, and nothing is evaluated elsewhere. -/
theorem looking_advances_nothing (walk : Walk) (rounds : Nat) :
    (∀ given once, walk.current rounds = some (given, once) →
      ∀ more, once.current (more + 1) = some (given, once)) ∧
    (∀ earlier before call after,
      (walk.replies rounds earlier (before ++ .current :: call :: after)).map
          (·.eraseIdx before.length) =
        walk.replies rounds earlier (before ++ call :: after)) ∧
    (∀ calls all, walk.replies rounds [] calls = some all →
      ∀ reply ∈ all, reply.visits.Nodup) ∧
    (∀ settled, walk.settle rounds = some settled → settled.visit? = none) ∧
    (∀ visit, walk.visit? = some visit →
      walk.step = (true, if walk.arena.kind? visit.node = some .iterator then
        walk.enterLoop visit.node else walk.enterSelected visit.node)) ∧
    (walk.visit? = none → walk.step.2.store = walk.store ∨
      ∃ loop counter, walk.step.2.store = walk.store.bindCounter loop counter) := by
  refine ⟨fun given once ran more => ?_, walk.replies_look rounds, fun calls all ran reply member =>
    ?_, fun settled ran => visit?_of_rests (rests_of_settle ran), fun visit => step_of_visit,
    store_of_no_visit⟩
  · rcases Option.map_eq_some_iff.mp ran with ⟨settled, settles, same⟩
    cases same
    rw [current, settle_of_rests (rests_of_settle settles), Option.map_some]
  · have first : Ordered [] walk := ⟨.nil, List.forall_mem_nil _⟩
    exact (holds_of_replies Ordered Ordered.step Ordered.skip first ran reply member).nodup

/-- The loop that contains itself is entered once and met twice more before the first node is
handed out, and to look at the second node makes no visit that is not made without that. -/
theorem looking_advances_nothing_coil :
    ∃ once all,
      (start coil (some (.empty "t")) ⟨0, 0⟩ ⟨3⟩).current 40 = some (some ⟨5, 0⟩, once) ∧
      once.current 1 = some (some ⟨5, 0⟩, once) ∧
      (start coil (some (.empty "t")) ⟨0, 0⟩ ⟨3⟩).replies 40 [] [.next, .current, .next] =
        some all ∧
      all.map (fun reply => (reply.answer, reply.visits.length)) =
        [(some ⟨5, 0⟩, 5), (some ⟨4, 0⟩, 5), (some ⟨4, 0⟩, 5)] ∧
      (start coil (some (.empty "t")) ⟨0, 0⟩ ⟨3⟩).replies 40 [] [.next, .next] =
        some (all.eraseIdx 1) ∧
      ∀ reply ∈ all, reply.visits.Nodup := by
  have first : ((start coil (some (.empty "t")) ⟨0, 0⟩ ⟨3⟩).current 40).map (·.1) =
      some (some ⟨5, 0⟩) := by decide +kernel
  have answers : ((start coil (some (.empty "t")) ⟨0, 0⟩ ⟨3⟩).replies 40 []
      [.next, .current, .next]).map (·.map fun reply => (reply.answer, reply.visits.length)) =
        some [(some ⟨5, 0⟩, 5), (some ⟨4, 0⟩, 5), (some ⟨4, 0⟩, 5)] := by decide +kernel
  rcases Option.map_eq_some_iff.mp first with ⟨⟨given, once⟩, looked, rfl⟩
  rcases Option.map_eq_some_iff.mp answers with ⟨all, replied, same⟩
  rcases looking_advances_nothing (start coil (some (.empty "t")) ⟨0, 0⟩ ⟨3⟩) 40 with
    ⟨again, inserted, unrepeated, -⟩
  have shorter := inserted [] [.next] .next []
  rw [List.cons_append, List.nil_append, replied] at shorter
  exact ⟨once, all, looked, again _ once looked 0, replied, same, shorter.symm,
    unrepeated _ all replied⟩

end Walk
end RecordGraph
