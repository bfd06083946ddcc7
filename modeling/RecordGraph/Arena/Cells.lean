import RecordGraph.Arena.Links

/-!
# Cells

An arena keeps a node together with its count and its state. Here they are kept apart: a cell has a
generation, a count, a state and a node, and an operation sets each of them by itself. So a cell
could be live without a node, or free with one. Nor does a count go on for ever: the last one stays
as it is when another owner comes.
-/

namespace RecordGraph

inductive CellState where
  | live
  | dying
  | free
deriving DecidableEq

structure Cell where
  generation : Nat
  owners : Nat
  state : CellState
  node : Option Node
deriving DecidableEq

structure Cells where
  cells : Array Cell
  free : List Nat
  live : Nat
  names : NameTable
deriving DecidableEq

namespace Cells

def empty : Cells := ⟨#[], [], 0, .attributes⟩

def lastCount : Nat := pow2 32 - 1

/-! ## One cell -/

def isLive (id : NodeId) (cell : Cell) : Bool :=
  cell.generation == id.generation && cell.state == .live

def cell? (cells : Cells) (id : NodeId) : Option Cell :=
  cells.cells[id.index]?.filter (isLive id)

def contains (cells : Cells) (id : NodeId) : Bool :=
  (cells.cell? id).isSome

def node? (cells : Cells) (id : NodeId) : Option Node :=
  (cells.cell? id).bind (·.node)

def children (cells : Cells) (id : NodeId) : Array NodeId :=
  ((cells.node? id).map (·.childArray)).getD #[]

def child? (cells : Cells) (id : NodeId) (index : Nat) : Option NodeId :=
  (cells.children id)[index]?

def update (cells : Cells) (id : NodeId) (change : Cell → Cell) : Cells :=
  { cells with
    cells := cells.cells.modify id.index fun cell => if isLive id cell then change cell else cell }

def modifyNode (cells : Cells) (id : NodeId) (change : Node → Node) : Cells :=
  cells.update id fun cell => { cell with node := cell.node.map change }

def setAttr (cells : Cells) (id : NodeId) (name : String) (value : Value) : Cells :=
  if cells.contains id then
    match cells.names.intern name with
    | .ok (attr, names) => { cells with names }.modifyNode id (·.setAttr attr value)
    | .error _ => cells
  else cells

/-! ## Owners -/

def retain (cells : Cells) (id : NodeId) : Cells :=
  cells.update id fun cell => { cell with owners := min (cell.owners + 1) lastCount }

def drop (cells : Cells) (id : NodeId) : Cells :=
  cells.update id fun cell => { cell with owners := cell.owners - 1 }

def condemn (cells : Cells) (id : NodeId) : Cells :=
  cells.update id fun cell => { cell with state := .dying }

def vacate (cells : Cells) (index : Nat) : Cells :=
  { cells with
    cells := cells.cells.modify index fun cell => ⟨cell.generation + 1, 0, .free, none⟩
    free := index :: cells.free
    live := cells.live - 1 }

def releaseChild (state : Cells × List NodeId) (child : NodeId) : Cells × List NodeId :=
  match state with
  | (cells, work) =>
    match cells.cell? child with
    | none => (cells, work)
    | some cell =>
      if cell.owners - 1 = 0 then ((cells.drop child).condemn child, child :: work)
      else (cells.drop child, work)

def teardown : Nat → List NodeId → Cells → Cells
  | 0, _, cells => cells
  | _ + 1, [], cells => cells
  | rounds + 1, id :: work, cells =>
    match cells.cells[id.index]? with
    | none => teardown rounds work cells
    | some cell =>
      if cell.generation = id.generation ∧ cell.state = .dying then
        let children := (cell.node.map (·.childArray)).getD #[]
        let (cells, work) := children.foldl releaseChild (cells.vacate id.index, work)
        teardown rounds work cells
      else teardown rounds work cells

def destroy (cells : Cells) (id : NodeId) : Cells :=
  teardown cells.cells.size [id] (cells.condemn id)

def release (cells : Cells) (id : NodeId) : Cells :=
  match cells.cell? id with
  | none => cells
  | some cell => if cell.owners - 1 = 0 then (cells.drop id).destroy id else cells.drop id

def releaseIfUnowned (cells : Cells) (id : NodeId) : Cells :=
  if (cells.cell? id).any (·.owners == 0) then cells.destroy id else cells

/-! ## New nodes -/

def adoptChild (state : Array NodeId × Cells) (child : NodeId) : Array NodeId × Cells :=
  match state with
  | (kept, cells) =>
    if cells.contains child then (kept.push child, cells.retain child) else (kept, cells)

def adopt (cells : Cells) (node : Node) : Node × Cells :=
  match node.children with
  | none => (node, cells)
  | some children =>
    let (kept, cells) := children.foldl adoptChild (#[], cells)
    ({ node with children := some kept }, cells)

def place (cells : Cells) (node : Node) : NodeId × Cells :=
  match cells with
  | ⟨cells, [], live, names⟩ =>
    (⟨cells.size, 0⟩, ⟨cells.push ⟨0, 0, .live, some node⟩, [], live + 1, names⟩)
  | ⟨cells, index :: free, live, names⟩ =>
    (⟨index, (cells[index]?.map (·.generation)).getD 0⟩,
      ⟨cells.modify index fun cell => ⟨cell.generation, 0, .live, some node⟩, free, live + 1,
        names⟩)

def alloc (cells : Cells) (node : Node) : NodeId × Cells :=
  let (node, cells) := cells.adopt node
  cells.place node

/-! ## Child lists -/

def canLink (cells : Cells) (child : NodeId) : Bool :=
  match cells.cell? child with
  | some cell => cell.owners == 0 || cell.node.any (·.shareable)
  | none => false

def pushChild (cells : Cells) (parent child : NodeId) : Bool × Cells :=
  if cells.contains parent && cells.canLink child then
    (true, (cells.retain child).modifyNode parent (·.push child))
  else (false, cells)

def insertChild (cells : Cells) (parent : NodeId) (index : Nat) (child : NodeId) : Bool × Cells :=
  if cells.contains parent && cells.canLink child then
    (true, (cells.retain child).modifyNode parent fun node =>
      { node with children := some (node.childArray.insertIdxIfInBounds
          (min index node.childArray.size) child) })
  else (false, cells)

def setChild (cells : Cells) (parent : NodeId) (index : Nat) (child : NodeId) : Bool × Cells :=
  if !cells.contains parent then (false, cells)
  else
    match cells.child? parent index with
    | none =>
      if index = (cells.children parent).size then cells.pushChild parent child
      else (false, cells)
    | some old =>
      if old = child then (true, cells)
      else if cells.canLink child then
        let cells := (cells.retain child).modifyNode parent fun node =>
          { node with children := node.children.map fun children =>
              children.setIfInBounds index child }
        (true, cells.release old)
      else (false, cells)

def removeChild (cells : Cells) (parent : NodeId) (index : Nat) : Bool × Cells :=
  match cells.child? parent index with
  | none => (false, cells)
  | some old =>
    let cells := cells.modifyNode parent fun node =>
      { node with children := node.children.map fun children =>
          children.eraseIdxIfInBounds index }
    (true, cells.release old)

def clearChildren (cells : Cells) (parent : NodeId) : Cells :=
  let old := cells.children parent
  let cells := cells.modifyNode parent fun node =>
    { node with children := node.children.map fun _ => #[] }
  old.foldl release cells

end Cells
end RecordGraph
