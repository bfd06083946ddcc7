import RecordGraph.Proofs.SymbolTable.Lengths
import RecordGraph.Proofs.Walk.Refinement

/-!
# Walks are bounded and end

A walk restarts its lists, binds counters anew and evaluates expressions that store into the arena,
but it cannot go on forever. Frames are only entered below the limit, the values of a counter are
laid down when its loop is entered, and no list grows beyond a bound that holds for the whole walk.
So each list that is walked at a depth ends, if those that are walked below it do.
-/

namespace RecordGraph

/-! ## Lists stay within a bound -/

def Store.Contained (bound : Nat) (store : Store) : Prop :=
  RecordGraph.Contained bound store.table store.arena

def Encounter.Contained (bound : Nat) (limit : DepthLimit) (depth : Nat) : Encounter → Prop
  | .ordinary => True
  | .nothing after => after.Contained bound
  | .loop _ _ after => after.Contained bound ∧ depth < limit.max
  | .selected _ after => after.Contained bound ∧ depth < limit.max

namespace Store.Contained

variable {bound : Nat} {store : Store} (contained : store.Contained bound)
include contained

theorem bindCounter (loop : NodeId) (counter : Int64) :
    (store.bindCounter loop counter).Contained bound := by
  rcases store with ⟨arena, table, failures⟩
  have stored : (arena.modifyNode loop (·.setAttr .value (.int counter))).Within bound :=
    contained.within.childless loop fun _ => rfl
  have counted : RecordGraph.Contained bound table
      (arena.modifyNode loop (·.setAttr .value (.int counter))) :=
    ⟨stored, contained.direct⟩
  cases table with
  | none => exact counted
  | some table => exact counted.define _ loop

theorem encounter (ample : DepthLimit.padding.max ≤ bound) (limit : DepthLimit) (depth : Nat)
    (child : NodeId) : (store.encounter limit depth child).Contained bound limit depth := by
  have evaluated : (store.evaluated child).Contained bound :=
    Evaluation.contained_evaluate contained ample child
  have below (allowed : limit.allows (depth + 1) = true) : depth < limit.max :=
    (limit.allows_iff _).mp allowed
  have met := store.met_encounter limit depth child
  generalize store.encounter limit depth child = meaning at met ⊢
  cases met with
  | ordinary => trivial
  | passed => exact contained
  | loop _ _ _ _ _ allowed => exact ⟨contained, below allowed⟩
  | unselected => exact evaluated
  | selected _ allowed => exact ⟨evaluated, below allowed⟩

end Store.Contained

/-! ## The recursion ends -/

def Ends (bound : Nat) (limit : DepthLimit) (depth : Nat) (task : Task) (store : Store) : Prop :=
  ∃ given later, Expands limit depth task store given later ∧ later.Contained bound

section

variable {bound : Nat} {limit : DepthLimit} {depth : Nat}

theorem ends_turns {loop : NodeId}
    (lists : ∀ {store : Store}, store.Contained bound → Ends bound limit depth (.list loop 0) store)
    (values : List Int64) {store : Store} (contained : store.Contained bound) :
    Ends bound limit depth (.turns loop values) store := by
  induction values generalizing store with
  | nil => exact ⟨[], store, .noTurn, contained⟩
  | cons value values induction =>
    rcases lists (contained.bindCounter loop value) with ⟨given, middle, body, kept⟩
    rcases induction kept with ⟨more, later, rest, within⟩
    exact ⟨given ++ more, later, .turn body rest, within⟩

variable (ample : DepthLimit.padding.max ≤ bound)
include ample

/-- A list ends after as many positions as lie below the bound, if what is entered from it does. -/
theorem ends_list_of_below
    (below : depth < limit.max → ∀ {list : NodeId} {store : Store}, store.Contained bound →
      Ends bound limit (depth + 1) (.list list 0) store)
    {list : NodeId} (remaining : Nat) {position : Nat} (enough : bound ≤ position + remaining)
    {store : Store} (contained : store.Contained bound) :
    Ends bound limit depth (.list list position) store := by
  induction remaining generalizing position store with
  | zero =>
    cases found : store.arena.child? list position with
    | none => exact ⟨[], store, .finished found, contained⟩
    | some child =>
      have inside := contained.within.lt_of_child? found
      omega
  | succ remaining induction =>
    cases found : store.arena.child? list position with
    | none => exact ⟨[], store, .finished found, contained⟩
    | some child =>
      have met := contained.encounter ample limit depth child
      have rest {middle : Store} (kept : middle.Contained bound) :
          Ends bound limit depth (.list list (position + 1)) middle :=
        induction (by omega) kept
      cases same : store.encounter limit depth child with
      | ordinary =>
        rcases rest contained with ⟨given, later, expands, within⟩
        exact ⟨child :: given, later, .ordinary found same expands, within⟩
      | nothing middle =>
        rw [same] at met
        rcases rest met with ⟨given, later, expands, within⟩
        exact ⟨given, later, .nothing found same expands, within⟩
      | loop start stop begun =>
        rw [same] at met
        rcases ends_turns (below met.2) (counters start stop) met.1 with
          ⟨given, middle, body, kept⟩
        rcases rest kept with ⟨more, later, expands, within⟩
        exact ⟨given ++ more, later, .loop found same body expands, within⟩
      | selected chosen begun =>
        rw [same] at met
        rcases below met.2 met.1 with ⟨given, middle, body, kept⟩
        rcases rest kept with ⟨more, later, expands, within⟩
        exact ⟨given ++ more, later, .selected found same body expands, within⟩

theorem ends_list (room : Nat) (enough : limit.max ≤ depth + room) {list : NodeId}
    {position : Nat} {store : Store} (contained : store.Contained bound) :
    Ends bound limit depth (.list list position) store := by
  induction room generalizing depth list position store with
  | zero => exact ends_list_of_below ample (by omega) bound (by omega) contained
  | succ room induction =>
    apply ends_list_of_below ample _ bound (by omega) contained
    intro _ list store kept
    exact induction (by omega) kept

end

/-! ## Frames and the bounds that were read -/

/-- If a frame is that of a loop, it is at a turn between the bounds that were read when the loop
was entered. -/
def Frame.Keeps (frame : Frame) (read : Option (Int64 × Int64)) : Prop :=
  ∀ turn, frame.turn = some turn →
    ∃ start, read = some (start, turn.stop) ∧ start ≤ turn.counter ∧ turn.counter ≤ turn.stop

namespace Walk

def range? (walk : Walk) : Option (Int64 × Int64) :=
  match walk.here with
  | none => none
  | some child =>
    if walk.arena.kind? child = some .iterator then
      match walk.bound child .start, walk.bound child .stop with
      | some start, some stop => some (start, stop)
      | _, _ => none
    else none

def remember (before after : Walk) (read : List (Option (Int64 × Int64))) :
    List (Option (Int64 × Int64)) :=
  if before.depth < after.depth then before.range? :: read
  else if after.depth < before.depth then read.tail
  else read

inductive Passes (first : Walk) : Walk → List (Option (Int64 × Int64)) → Prop where
  | start : Passes first first (first.frames.list.map fun _ => none)
  | step {walk : Walk} {read : List (Option (Int64 × Int64))} (passes : Passes first walk read) :
      Passes first walk.step.2 (remember walk walk.step.2 read)
  | skip {walk : Walk} {read : List (Option (Int64 × Int64))} (passes : Passes first walk read) :
      Passes first walk.skip read

structure Guided (limit : DepthLimit) (walk : Walk) (read : List (Option (Int64 × Int64))) : Prop
    where
  limit_eq : walk.limit = limit
  depth_le : walk.depth ≤ max 1 limit.max
  keeps : List.Forall₂ Frame.Keeps walk.frames.list read

theorem keeps_skip {top : Frame} {outer : List Frame} {read : List (Option (Int64 × Int64))}
    (keeps : List.Forall₂ Frame.Keeps (top :: outer) read) :
    List.Forall₂ Frame.Keeps (top.skip :: outer) read := by
  cases keeps with
  | cons own others => exact .cons own others

namespace Guided

section

variable {store later : Store} {limit : DepthLimit} {top : Frame} {outer : List Frame}
  {read : List (Option (Int64 × Int64))}

theorem changed {frames changed : List Frame} (same : changed.length = frames.length)
    (few : frames.length ≤ max 1 limit.max) (keeps : List.Forall₂ Frame.Keeps changed read) :
    Guided limit (later.over changed limit)
      (remember (store.over frames limit) (later.over changed limit) read) where
  limit_eq := rfl
  depth_le := Nat.le_trans (Nat.le_of_eq same) few
  keeps := by
    have sameDepth : (later.over changed limit).depth = (store.over frames limit).depth := same
    simp only [remember, sameDepth, Nat.lt_irrefl, ↓reduceIte]
    exact keeps

theorem entered {new : Frame} (allowed : limit.allows ((top :: outer).length + 1) = true)
    (own : new.Keeps (store.over (top :: outer) limit).range?)
    (keeps : List.Forall₂ Frame.Keeps (top :: outer) read) :
    Guided limit (later.over (new :: top :: outer) limit)
      (remember (store.over (top :: outer) limit) (later.over (new :: top :: outer) limit)
        read) where
  limit_eq := rfl
  depth_le := Nat.le_trans ((limit.allows_iff _).mp allowed) (Nat.le_max_right 1 limit.max)
  keeps := by
    have deeper : (store.over (top :: outer) limit).depth <
        (later.over (new :: top :: outer) limit).depth := Nat.lt_succ_self _
    rw [remember, if_pos deeper]
    exact .cons own keeps

theorem left {below : Frame} (few : (top :: below :: outer).length ≤ max 1 limit.max)
    (keeps : List.Forall₂ Frame.Keeps (top :: below :: outer) read) :
    Guided limit (store.over (below.skip :: outer) limit)
      (remember (store.over (top :: below :: outer) limit) (store.over (below.skip :: outer) limit)
        read) where
  limit_eq := rfl
  depth_le := Nat.le_trans (Nat.le_succ _) few
  keeps := by
    have shallower : (store.over (below.skip :: outer) limit).depth <
        (store.over (top :: below :: outer) limit).depth := Nat.lt_succ_self _
    rw [remember, if_neg (Nat.not_lt_of_lt shallower), if_pos shallower]
    cases keeps with
    | cons own others => exact keeps_skip others

theorem range?_over {child : NodeId} {start stop : Int64}
    (found : store.arena.child? top.list top.position = some child)
    (iterates : store.arena.kind? child = some .iterator)
    (first : store.bound child .start = some start) (last : store.bound child .stop = some stop) :
    (store.over (top :: outer) limit).range? = some (start, stop) := by
  have here : (store.over (top :: outer) limit).here = some child := found
  have kind : (store.over (top :: outer) limit).arena.kind? child = some .iterator := iterates
  have begins : (store.over (top :: outer) limit).bound child .start = some start := first
  have ends : (store.over (top :: outer) limit).bound child .stop = some stop := last
  simp only [range?, here, kind, begins, ends, ↓reduceIte]

theorem steps {frames afterwards : List Frame} (few : frames.length ≤ max 1 limit.max)
    (keeps : List.Forall₂ Frame.Keeps frames read)
    (steps : Steps limit store frames later afterwards) :
    Guided limit (later.over afterwards limit)
      (remember (store.over frames limit) (later.over afterwards limit) read) := by
  cases steps with
  | rested => exact changed rfl few keeps
  | passed | unselected => exact changed rfl few (keeps_skip keeps)
  | @entered _ _ child start stop _ found iterates first last order allowed =>
    apply entered allowed _ keeps
    intro turn same
    cases same
    exact ⟨start, range?_over found iterates first last, Int64.le_refl start,
      Int64.not_lt.mp order⟩
  | selected _ allowed => exact entered allowed (fun _ same => by cases same) keeps
  | @turned outer loop position counter stop less =>
    have turned : List.Forall₂ Frame.Keeps (⟨loop, 0, some ⟨counter + 1, stop⟩⟩ :: outer) read := by
      cases keeps with
      | cons own others =>
        apply List.Forall₂.cons _ others
        intro turn same
        cases same
        rcases own _ rfl with ⟨start, found, above, -⟩
        have next := toInt_succ less
        simp only [Int64.lt_iff_toInt_lt, Int64.le_iff_toInt_le] at less above ⊢
        exact ⟨start, found, by omega, by omega⟩
    exact changed rfl few turned
  | left => exact left few keeps

end

variable {limit : DepthLimit} {walk : Walk} {read : List (Option (Int64 × Int64))}

theorem step (guided : Guided limit walk read) :
    Guided limit walk.step.2 (remember walk walk.step.2 read) := by
  rcases guided with ⟨rfl, few, keeps⟩
  rcases walk.step_cases with ⟨later, afterwards, same, taken⟩
  have fewFrames : walk.frames.list.length ≤ max 1 walk.limit.max := by
    rw [← walk.frames.count_eq]
    exact few
  have guided := steps fewFrames keeps taken
  rw [over_store] at guided
  rwa [same]

theorem skip (guided : Guided limit walk read) : Guided limit walk.skip read := by
  rcases walk with ⟨arena, table, ⟨frames, count, rfl⟩, limit, failures⟩
  rcases guided with ⟨rfl, few, keeps⟩
  cases frames with
  | nil => exact ⟨rfl, few, keeps⟩
  | cons top outer => exact ⟨rfl, few, keeps_skip keeps⟩

end Guided

theorem guided_start (arena : Arena) (table : Option SymbolTable) (root : NodeId)
    (limit : DepthLimit) :
    Guided limit (start arena table root limit)
      ((start arena table root limit).frames.list.map fun _ => none) := by
  cases live : arena.contains root with
  | true =>
    rw [start_of_live arena table limit live]
    exact ⟨rfl, Nat.le_max_left 1 _, .cons (fun _ same => by cases same) .nil⟩
  | false =>
    rw [start_of_stale arena table limit live]
    exact ⟨rfl, Nat.zero_le _, .nil⟩

theorem guided_of_passes {arena : Arena} {table : Option SymbolTable} {root : NodeId}
    {limit : DepthLimit} {walk : Walk} {read : List (Option (Int64 × Int64))}
    (passes : Passes (start arena table root limit) walk read) : Guided limit walk read := by
  induction passes with
  | start => exact guided_start arena table root limit
  | step _ induction => exact induction.step
  | skip _ induction => exact induction.skip

/-! ## Every walk ends -/

/-- A walk with a table that builds leaves ends. On its way it never has more frames than allowed,
and the counter of each loop that runs stands between the bounds that were read when the loop was
entered. -/
theorem drains_within_limit (arena : Arena) (table : Option SymbolTable) (root : NodeId)
    (limit : DepthLimit) (standard : ∀ own, table = some own → own.registry = .standard) :
    (∃ given final, Drains (start arena table root limit) given final) ∧
    ∀ walk read, Passes (start arena table root limit) walk read →
      walk.depth ≤ max 1 limit.max ∧ List.Forall₂ Frame.Keeps walk.frames.list read := by
  constructor
  · rcases arena.exists_within with ⟨bound, within⟩
    have contained : Store.Contained (max bound DepthLimit.padding.max) ⟨arena, table, #[]⟩ :=
      ⟨within.mono (Nat.le_max_left ..), fun own same => by
        rw [standard own same]
        exact Registry.direct_standard⟩
    have ends : Ends _ limit 1 (.list root 0) ⟨arena, table, #[]⟩ :=
      ends_list (Nat.le_max_right ..) limit.max (Nat.le_add_left ..) contained
    rcases ends with ⟨given, final, expands, -⟩
    exact ⟨given, final, drains_of_expands expands⟩
  · intro walk read passes
    have guided := guided_of_passes passes
    exact ⟨guided.depth_le, guided.keeps⟩

def coil : Arena :=
  let loop := ((Node.ofKind "i" .iterator).setAttr .start (.int 1)).setAttr .stop (.int 2)
  let raise := ((Node.ofKind "" .expr).setAttr .op (.text "+")).setAttr .var1 (.text "$i.STOP")
  let fill := ((Node.ofKind "" .expr).setAttr .op (.text "SET")).setAttr .var1 (.text "$i")
  let stored := Arena.empty.allocAll
    [.ofKind "root" .list, loop, raise.setAttr .var2 (.int 1), fill.setAttr .result (.text "i[4]")]
  let links : List (Nat × Nat) := [(0, 1), (1, 1), (1, 2), (1, 3)]
  links.foldl (fun arena link => (arena.pushChild ⟨link.1, 0⟩ ⟨link.2, 0⟩).2) stored

theorem drains_within_limit_coil :
    (∀ own, some (SymbolTable.empty "t") = some own → own.registry = .standard) ∧
    ((start coil (some (.empty "t")) ⟨0, 0⟩ ⟨3⟩).fold 40 (fun count _ _ => count + 1) 40 0).map
      (fun ended => (ended.1, ended.2.arena.childCount ⟨1, 0⟩)) = some (18, 5) ∧
    (∃ given final, Drains (start coil (some (.empty "t")) ⟨0, 0⟩ ⟨3⟩) given final) ∧
    ∀ walk read, Passes (start coil (some (.empty "t")) ⟨0, 0⟩ ⟨3⟩) walk read →
      walk.depth ≤ 3 ∧ List.Forall₂ Frame.Keeps walk.frames.list read := by
  have standard (own : SymbolTable) (same : some (SymbolTable.empty "t") = some own) :
      own.registry = .standard := by
    cases same
    rfl
  exact ⟨standard, by decide +kernel, drains_within_limit coil (some (.empty "t")) ⟨0, 0⟩ ⟨3⟩ standard⟩

end Walk
end RecordGraph
