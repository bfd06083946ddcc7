import RecordGraph.Walk

/-!
# Expansion as a recursion

What a walk hands out is described here without frames. A list is walked from a position on, and
its child list is looked at anew for each position. An ordinary child is handed out. A loop is
walked once for each value of its counter, and these values are laid down when the loop is met. A
guard, a switch or an expr is evaluated, and the list it selects is walked in its place. Nothing is
walked below the limit of depths.
-/

namespace RecordGraph

structure Store where
  arena : Arena
  table : Option SymbolTable
  failures : Array Failure

inductive Encounter where
  | ordinary
  | nothing (after : Store)
  | loop (start stop : Int64) (after : Store)
  | selected (list : NodeId) (after : Store)

namespace Store

def note (store : Store) (new : List Failure) : Store :=
  ⟨store.arena, store.table, store.failures ++ new⟩

/-- Store the counter of a loop in its node, and bind the node under its name. -/
def bindCounter (store : Store) (loop : NodeId) (counter : Int64) : Store :=
  let arena := store.arena.modifyNode loop (·.setAttr .value (.int counter))
  match store.table with
  | none => ⟨arena, none, store.failures⟩
  | some table =>
    let (table, arena) := table.define arena (arena.name loop) loop
    ⟨arena, some table, store.failures⟩

/-- A bound of a loop: the integer that an attribute stands for, if its value is there. -/
def bound (store : Store) (loop : NodeId) (id : AttrId) : Option Int64 :=
  match store.arena.attrById? loop id with
  | none => none
  | some raw =>
    let value := Evaluation.operandValue store.table store.arena raw
    if value.isAbsent then none else some value.toInt

def boundFailures (store : Store) (loop : NodeId) (id : AttrId) : List Failure :=
  match store.arena.attrById? loop id with
  | none => []
  | some raw => Evaluation.operandFailures store.table store.arena raw

variable (limit : DepthLimit) (depth : Nat)

def meetLoop (store : Store) (loop : NodeId) : Encounter :=
  if store.arena.name loop = "" || store.arena.childCount loop == 0 then .nothing store
  else
    let noted := store.note (store.boundFailures loop .start ++ store.boundFailures loop .stop)
    match store.bound loop .start, store.bound loop .stop with
    | some start, some stop =>
      if stop < start then .nothing noted
      else if limit.allows (depth + 1) then .loop start stop noted
      else .nothing (noted.note [.expansionTooDeep])
    | _, _ => .nothing noted

def meetConditional (store : Store) (node : NodeId) : Encounter :=
  let effect := Evaluation.evaluate store.table store.arena node
  let after : Store := ⟨effect.arena, effect.table, store.failures ++ effect.failures⟩
  match effect.result with
  | some list =>
    if limit.allows (depth + 1) then .selected list after
    else .nothing (after.note [.expansionTooDeep])
  | none => .nothing after

def encounter (store : Store) (child : NodeId) : Encounter :=
  match store.arena.kind? child with
  | some .iterator => store.meetLoop limit depth child
  | some kind => if kind.isConditional then store.meetConditional limit depth child else .ordinary
  | none => .ordinary

def evaluated (store : Store) (node : NodeId) : Store :=
  let effect := Evaluation.evaluate store.table store.arena node
  ⟨effect.arena, effect.table, store.failures ++ effect.failures⟩

inductive Met (limit : DepthLimit) (depth : Nat) (store : Store) (child : NodeId) : Encounter → Prop
    where
  | ordinary : Met limit depth store child .ordinary
  | passed (new : List Failure) : Met limit depth store child (.nothing (store.note new))
  | loop {start stop : Int64} (new : List Failure)
      (iterates : store.arena.kind? child = some .iterator)
      (first : store.bound child .start = some start) (last : store.bound child .stop = some stop)
      (order : ¬ stop < start) (allowed : limit.allows (depth + 1) = true) :
      Met limit depth store child (.loop start stop (store.note new))
  | unselected (new : List Failure) :
      Met limit depth store child (.nothing ((store.evaluated child).note new))
  | selected {list : NodeId}
      (chosen : (Evaluation.evaluate store.table store.arena child).result = some list)
      (allowed : limit.allows (depth + 1) = true) :
      Met limit depth store child (.selected list (store.evaluated child))

theorem note_nil (store : Store) : store.note [] = store := by
  simp [note]

theorem note_note (store : Store) (first second : List Failure) :
    (store.note first).note second = store.note (first ++ second) := by
  have same : store.failures ++ first ++ second = store.failures ++ (first ++ second) := by
    apply Array.toList_inj.mp
    simp
  simp only [note, same]

theorem met_loop {store : Store} {child : NodeId}
    (iterates : store.arena.kind? child = some .iterator) :
    Met limit depth store child (store.meetLoop limit depth child) := by
  unfold meetLoop
  split
  · have passed : Met limit depth store child (.nothing (store.note [])) := .passed []
    rwa [note_nil] at passed
  · simp only
    split
    · rename_i start stop first last
      split
      · exact .passed _
      · rename_i order
        split
        · rename_i allowed
          exact .loop _ iterates first last order allowed
        · rw [note_note]
          exact .passed _
    · exact .passed _

theorem met_conditional (store : Store) (child : NodeId) :
    Met limit depth store child (store.meetConditional limit depth child) := by
  unfold meetConditional
  simp only
  split
  · rename_i chosen
    split
    · rename_i allowed
      exact .selected chosen allowed
    · exact .unselected _
  · have unselected : Met limit depth store child (.nothing ((store.evaluated child).note [])) :=
      .unselected []
    rwa [note_nil] at unselected

theorem met_encounter (store : Store) (child : NodeId) :
    Met limit depth store child (store.encounter limit depth child) := by
  unfold encounter
  split
  · rename_i iterates
    exact met_loop limit depth iterates
  · split
    · exact met_conditional limit depth store child
    · exact .ordinary
  · exact .ordinary

end Store

def counters (start stop : Int64) : List Int64 :=
  (List.range (stop.toInt - start.toInt + 1).toNat).map fun (turn : Nat) =>
    Int64.ofInt (start.toInt + turn)

inductive Task where
  | list (list : NodeId) (position : Nat)
  | turns (loop : NodeId) (counters : List Int64)

inductive Expands (limit : DepthLimit) : Nat → Task → Store → List NodeId → Store → Prop where
  | finished {depth : Nat} {list : NodeId} {position : Nat} {store : Store}
      (missing : store.arena.child? list position = none) :
      Expands limit depth (.list list position) store [] store
  | ordinary {depth : Nat} {list child : NodeId} {position : Nat} {store after : Store}
      {given : List NodeId}
      (found : store.arena.child? list position = some child)
      (met : store.encounter limit depth child = .ordinary)
      (rest : Expands limit depth (.list list (position + 1)) store given after) :
      Expands limit depth (.list list position) store (child :: given) after
  | nothing {depth : Nat} {list child : NodeId} {position : Nat} {store middle after : Store}
      {given : List NodeId}
      (found : store.arena.child? list position = some child)
      (met : store.encounter limit depth child = .nothing middle)
      (rest : Expands limit depth (.list list (position + 1)) middle given after) :
      Expands limit depth (.list list position) store given after
  | loop {depth : Nat} {list child : NodeId} {position : Nat} {store met middle after : Store}
      {start stop : Int64} {given more : List NodeId}
      (found : store.arena.child? list position = some child)
      (enters : store.encounter limit depth child = .loop start stop met)
      (body : Expands limit (depth + 1) (.turns child (counters start stop)) met given middle)
      (rest : Expands limit depth (.list list (position + 1)) middle more after) :
      Expands limit depth (.list list position) store (given ++ more) after
  | selected {depth : Nat} {list child chosen : NodeId} {position : Nat}
      {store met middle after : Store} {given more : List NodeId}
      (found : store.arena.child? list position = some child)
      (enters : store.encounter limit depth child = .selected chosen met)
      (body : Expands limit (depth + 1) (.list chosen 0) met given middle)
      (rest : Expands limit depth (.list list (position + 1)) middle more after) :
      Expands limit depth (.list list position) store (given ++ more) after
  | noTurn {depth : Nat} {loop : NodeId} {store : Store} :
      Expands limit depth (.turns loop []) store [] store
  | turn {depth : Nat} {loop : NodeId} {counter : Int64} {counters : List Int64}
      {store middle after : Store} {given more : List NodeId}
      (body : Expands limit depth (.list loop 0) (store.bindCounter loop counter) given middle)
      (rest : Expands limit depth (.turns loop counters) middle more after) :
      Expands limit depth (.turns loop (counter :: counters)) store (given ++ more) after

/-! ## The values of a counter -/

theorem toInt_counters (start stop : Int64) :
    (counters start stop).map Int64.toInt =
      (List.range (stop.toInt - start.toInt + 1).toNat).map fun (turn : Nat) =>
        start.toInt + turn := by
  unfold counters
  rw [List.map_map]
  apply List.map_congr_left
  intro turn member
  have inside := List.mem_range.mp member
  have low := start.le_toInt
  have high := stop.toInt_lt
  rw [Function.comp_apply, Int64.toInt_ofInt_of_le] <;> omega

theorem counters_of_not_lt {start stop : Int64} (order : ¬ stop < start) :
    counters start stop = start :: (counters start stop).tail := by
  rw [Int64.lt_iff_toInt_lt] at order
  obtain ⟨turns, same⟩ : ∃ turns, (stop.toInt - start.toInt + 1).toNat = turns + 1 :=
    ⟨(stop.toInt - start.toInt).toNat, by omega⟩
  simp [counters, same, List.range_succ_eq_map]

theorem toInt_succ {counter stop : Int64} (less : counter < stop) :
    (counter + 1).toInt = counter.toInt + 1 := by
  have order := Int64.lt_iff_toInt_lt.mp less
  have low := counter.le_toInt
  have high := stop.toInt_lt
  rw [Int64.toInt_add, Int64.toInt_one, Int.bmod_eq_of_le] <;> omega

/-- Below the last value the next one is greater by one, and the values after it are those that
begin there. -/
theorem tail_counters_of_lt {counter stop : Int64} (less : counter < stop) :
    (counters counter stop).tail = (counter + 1) :: (counters (counter + 1) stop).tail := by
  have order := Int64.lt_iff_toInt_lt.mp less
  have next := toInt_succ less
  have notAbove : ¬ stop < counter + 1 := by
    rw [Int64.lt_iff_toInt_lt]
    omega
  rw [← counters_of_not_lt notAbove]
  have fewer : (stop.toInt - counter.toInt + 1).toNat =
      (stop.toInt - (counter + 1).toInt + 1).toNat + 1 := by omega
  simp only [counters, fewer, List.range_succ_eq_map, List.map_cons, List.tail_cons, List.map_map]
  apply List.map_congr_left
  intro turn member
  rw [Function.comp_apply, next]
  congr 1
  omega

theorem tail_counters_of_not_lt {counter stop : Int64} (last : ¬ counter < stop) :
    (counters counter stop).tail = [] := by
  rw [Int64.lt_iff_toInt_lt] at last
  have few : (stop.toInt - counter.toInt + 1).toNat ≤ 1 := by omega
  rw [← List.length_eq_zero_iff, List.length_tail, counters, List.length_map, List.length_range]
  omega

end RecordGraph
