import RecordGraph.Evaluation

/-!
# Walks

A walk hands out the children of a node in order, with control nodes replaced by what they expand
to. A loop repeats its own children once for each value of its counter; the counter stands in the
attribute `VALUE` of the loop node, which is bound in the symbol table under its own name. A guard,
a switch or an expr is evaluated, and the list it selects is walked in its place.

A walk keeps a frame for each list that is being walked, the innermost first. Frames beyond a limit
are not entered, so that a loop which contains itself comes to an end.

Between two nodes a walk may take many steps, and a loop without ordinary nodes has as many as it
has turns. The functions that look for the next node are given a number of rounds and have no
answer if these do not suffice.
-/

namespace RecordGraph

structure Turn where
  counter : Int64
  stop : Int64
deriving DecidableEq, Repr

structure Frame where
  list : NodeId
  position : Nat
  turn : Option Turn
deriving DecidableEq, Repr

namespace Frame

def atStart (list : NodeId) : Frame := ⟨list, 0, none⟩

def skip (frame : Frame) : Frame := { frame with position := frame.position + 1 }

end Frame

structure Frames where
  list : List Frame
  count : Nat
  count_eq : count = list.length

namespace Frames

def empty : Frames := ⟨[], 0, rfl⟩

def top? (frames : Frames) : Option Frame := frames.list.head?

def push (frame : Frame) : Frames → Frames
  | ⟨list, count, count_eq⟩ => ⟨frame :: list, count + 1, by simp [count_eq]⟩

def mapTop (change : Frame → Frame) : Frames → Frames
  | ⟨top :: below, count, count_eq⟩ => ⟨change top :: below, count, count_eq⟩
  | ⟨[], count, count_eq⟩ => ⟨[], count, count_eq⟩

def leave? : Frames → Option Frames
  | ⟨_ :: below :: rest, count, count_eq⟩ =>
    some ⟨below :: rest, count - 1, by simp [count_eq]⟩
  | _ => none

end Frames

structure Walk where
  arena : Arena
  table : Option SymbolTable
  frames : Frames
  limit : DepthLimit
  failures : Array Failure

namespace Walk

def start (arena : Arena) (table : Option SymbolTable) (root : NodeId) (limit : DepthLimit) :
    Walk :=
  let frames := if arena.contains root then Frames.empty.push (.atStart root) else .empty
  ⟨arena, table, frames, limit, #[]⟩

def depth (walk : Walk) : Nat := walk.frames.count

def skip (walk : Walk) : Walk :=
  match walk with
  | ⟨arena, table, frames, limit, failures⟩ =>
    ⟨arena, table, frames.mapTop .skip, limit, failures⟩

def note (walk : Walk) (new : List Failure) : Walk :=
  match walk with
  | ⟨arena, table, frames, limit, failures⟩ => ⟨arena, table, frames, limit, failures ++ new⟩

def enter (walk : Walk) (frame : Frame) : Bool × Walk :=
  if walk.limit.allows (walk.depth + 1) then
    match walk with
    | ⟨arena, table, frames, limit, failures⟩ =>
      (true, ⟨arena, table, frames.push frame, limit, failures⟩)
  else (false, (walk.note [.expansionTooDeep]).skip)

def bindCounter (walk : Walk) (loop : NodeId) (counter : Int64) : Walk :=
  match walk with
  | ⟨arena, table, frames, limit, failures⟩ =>
    let arena := arena.modifyNode loop (·.setAttr .value (.int counter))
    match table with
    | none => ⟨arena, none, frames, limit, failures⟩
    | some table =>
      let (table, arena) := table.define arena (arena.name loop) loop
      ⟨arena, some table, frames, limit, failures⟩

def bound (walk : Walk) (loop : NodeId) (id : AttrId) : Option Int64 :=
  match walk.arena.attrById? loop id with
  | none => none
  | some raw =>
    let value := Evaluation.operandValue walk.table walk.arena raw
    if value.isAbsent then none else some value.toInt

def boundFailures (walk : Walk) (loop : NodeId) (id : AttrId) : List Failure :=
  match walk.arena.attrById? loop id with
  | none => []
  | some raw => Evaluation.operandFailures walk.table walk.arena raw

def enterLoop (walk : Walk) (loop : NodeId) : Walk :=
  if walk.arena.name loop = "" || walk.arena.childCount loop == 0 then walk.skip
  else
    let start := walk.bound loop .start
    let stop := walk.bound loop .stop
    let walk := walk.note (walk.boundFailures loop .start ++ walk.boundFailures loop .stop)
    match start, stop with
    | some start, some stop =>
      if stop < start then walk.skip
      else
        match walk.enter ⟨loop, 0, some ⟨start, stop⟩⟩ with
        | (true, walk) => walk.bindCounter loop start
        | (false, walk) => walk
    | _, _ => walk.skip

def enterSelected (walk : Walk) (node : NodeId) : Walk :=
  match walk with
  | ⟨arena, table, frames, limit, failures⟩ =>
    let effect := Evaluation.evaluate table arena node
    let walk : Walk := ⟨effect.arena, effect.table, frames, limit, failures ++ effect.failures⟩
    match effect.result with
    | some list => (walk.enter (.atStart list)).2
    | none => walk.skip

def finishFrame (walk : Walk) : Bool × Walk :=
  match walk.frames.top? with
  | some ⟨loop, _, some ⟨counter, stop⟩⟩ =>
    if counter < stop then
      match walk with
      | ⟨arena, table, frames, limit, failures⟩ =>
        let frames := frames.mapTop fun _ => ⟨loop, 0, some ⟨counter + 1, stop⟩⟩
        (true, bindCounter ⟨arena, table, frames, limit, failures⟩ loop (counter + 1))
    else leave walk
  | _ => leave walk
where
  leave (walk : Walk) : Bool × Walk :=
    match walk.frames.leave? with
    | some outer =>
      match walk with
      | ⟨arena, table, _, limit, failures⟩ =>
        (true, skip ⟨arena, table, outer, limit, failures⟩)
    | none => (false, walk)

def step (walk : Walk) : Bool × Walk :=
  match walk.frames.top? with
  | none => (false, walk)
  | some top =>
    match walk.arena.child? top.list top.position with
    | none => walk.finishFrame
    | some child =>
      match walk.arena.kind? child with
      | some .iterator => (true, walk.enterLoop child)
      | some kind => if kind.isConditional then (true, walk.enterSelected child) else (false, walk)
      | none => (false, walk)

def settle : Nat → Walk → Option Walk
  | 0, _ => none
  | rounds + 1, walk =>
    match walk.step with
    | (true, walk) => settle rounds walk
    | (false, walk) => some walk

def here (walk : Walk) : Option NodeId :=
  walk.frames.top?.bind fun top => walk.arena.child? top.list top.position

def current (rounds : Nat) (walk : Walk) : Option (Option NodeId × Walk) :=
  (walk.settle rounds).map fun walk => (walk.here, walk)

def advance (rounds : Nat) (walk : Walk) : Option Walk :=
  (walk.settle rounds).map skip

def next (rounds : Nat) (walk : Walk) : Option (Option NodeId × Walk) :=
  match walk.current rounds with
  | none => none
  | some (none, walk) => some (none, walk)
  | some (some node, walk) => (walk.advance rounds).map fun walk => (some node, walk)

def fold (rounds : Nat) (visit : α → Walk → NodeId → α) : Nat → α → Walk → Option (α × Walk)
  | 0, _, _ => none
  | nodes + 1, collected, walk =>
    match walk.next rounds with
    | none => none
    | some (none, walk) => some (collected, walk)
    | some (some node, walk) => fold rounds visit nodes (visit collected walk node) walk

def patience : Nat := pow2 62

end Walk
end RecordGraph
