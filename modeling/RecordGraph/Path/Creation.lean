import RecordGraph.Path.Lookup

/-!
# Paths that make way

A path can be asked to bring into being what it names. A missing primary is built, with the type of
a template if there is one, and child lists are filled up to the indices. The template is put at
the place that the path names; without indices the key is bound to it.

The binding of a key is made last. A path that fails before that binds nothing, and a node that was
built for the binding is freed. Paths inside a path are only looked up.
-/

namespace RecordGraph.Path

structure PendingBinding where
  key : String
  node : NodeId
  fresh : Bool
deriving DecidableEq, Repr

structure Progress where
  cursor : Cursor
  arena : Arena

abbrev Builder := EStateM Error Progress

namespace Builder

def look (reader : Arena → Reader α) : Builder α := fun progress =>
  match (reader progress.arena).run progress.cursor with
  | .ok result cursor => .ok result { progress with cursor }
  | .error failure cursor => .error failure { progress with cursor }

def change (action : Arena → α × Arena) : Builder α := fun progress =>
  match progress with
  | ⟨cursor, arena⟩ =>
    let (result, arena) := action arena
    .ok result ⟨cursor, arena⟩

def onFailure (builder : Builder α) (action : Arena → Arena) : Builder α := fun progress =>
  match builder progress with
  | .ok result progress => .ok result progress
  | .error failure ⟨cursor, arena⟩ => .error failure ⟨cursor, action arena⟩

end Builder

/-- A new node with the type of a template, or a plain one. A plain node is also what is built if
the factory of the type builds nothing. -/
def freshNode (registry : Registry) (template : Option NodeId) (name : String) (arena : Arena) :
    NodeId × Arena :=
  let nodeType := ((template.bind arena.node?).map (·.nodeType)).getD (.ofKind .base)
  match registry.build arena { BuildRequest.named name with nodeType := some nodeType } with
  | (some node, arena) => (node, arena)
  | (none, arena) => buildLocal arena (.ofKind .base) name none

def fillUp (registry : Registry) (template : Option NodeId) (parent : NodeId) (index : Nat) :
    Nat → Arena → Arena
  | 0, arena => arena
  | rounds + 1, arena =>
    if index < arena.childCount parent then arena
    else
      let (filler, arena) := freshNode registry template "" arena
      let (pushed, arena) := arena.pushChild parent filler
      if pushed then fillUp registry template parent index rounds arena
      else arena.releaseIfUnowned filler

section

variable (table : SymbolTable) (create : Bool) (template : Option NodeId)

def makeRoom (parent : NodeId) (index : Nat) : Builder Unit := do
  let count := (← get).arena.childCount parent
  if index < count then return ()
  else if DepthLimit.padding.allows (index + 1) then
    Builder.change fun arena =>
      ((), fillUp table.registry template parent index (index + 1 - count)
        (arena.ensureChildren parent))
  else throw (.paddingTooLarge index DepthLimit.padding.max)

def childAt (parent : NodeId) (index : Nat) : Builder (Option NodeId) := do
  if create then makeRoom table template parent index
  return (← get).arena.child? parent index

/-- Follow the indices from a node. Besides the node reached this gives the last place in a child
list at which a child was found. The characters that are left bound the rounds. -/
def followIndices : List Char → Option NodeId → Option (NodeId × Nat) →
    Builder (Option NodeId × Option (NodeId × Nat))
  | [], current, place => return (current, place)
  | _ :: rounds, current, place => do
    if (← get).cursor.rest.head? = some '[' then
      Builder.look fun _ => Reader.advance
      let index ← Builder.look fun arena => indexValue table arena (inner table arena)
      match current, index with
      | some parent, some index =>
        let child ← childAt table create template parent index
        Builder.look fun _ => closeBracket table
        followIndices rounds child (if child.isSome then some (parent, index) else place)
      | _, _ =>
        Builder.look fun _ => closeBracket table
        followIndices rounds none place
    else return (current, place)

def buildIndices (start : NodeId) : Builder (Option NodeId) := do
  let rounds := (← get).cursor.rest
  match template, ← followIndices table create template rounds (some start) none with
  | some template, (some _, some (parent, index)) =>
    Builder.change fun arena => ((), (arena.setChild parent index template).2)
    return some template
  | _, (current, _) => return current

def buildPrimary : Builder (Option NodeId × Option PendingBinding) := do
  let key ← Builder.look fun arena => identifier table arena (inner table arena)
  if key = "" then return (none, none)
  else
    match table.lookup key with
    | some existing =>
      let addressed ← buildIndices table create template existing
      match template with
      | some node =>
        if addressed = some existing then return (some node, some ⟨key, node, false⟩)
        else return (addressed, none)
      | none => return (addressed, none)
    | none =>
      if create then
        let fresh ← Builder.change (freshNode table.registry template key)
        let addressed ← (buildIndices table create template fresh).onFailure
          (·.releaseIfUnowned fresh)
        match template with
        | some node =>
          if addressed = some fresh then
            Builder.change fun arena => ((), arena.releaseIfUnowned fresh)
            return (some node, some ⟨key, node, false⟩)
          else return (addressed, some ⟨key, fresh, true⟩)
        | none => return (addressed, some ⟨key, fresh, true⟩)
      else return (none, none)

def internAttr (name : String) (arena : Arena) : Option AttrId × Arena :=
  match arena.names.intern name with
  | .ok (attr, names) => (some attr, { arena with names })
  | .error _ => (none, arena)

def buildAttr : Builder (Option AttrId) := do
  if (← get).cursor.rest.head? = some '.' then
    Builder.look fun _ => Reader.advance
    let name ← Builder.look fun arena => identifier table arena (inner table arena)
    if name = "" then return none
    else if create then Builder.change (internAttr name)
    else return (← get).arena.names.query name
  else return some .value

def buildEnd : Builder (Option AttrId) := do
  let attr ← buildAttr table create
  let cursor := (← get).cursor
  if !table.robust && !cursor.rest.isEmpty then throw (.trailingInput cursor.position)
  else return attr

end

def abandon (pending : Option PendingBinding) (arena : Arena) : Arena :=
  match pending with
  | some ⟨_, node, true⟩ => arena.releaseIfUnowned node
  | _ => arena

def buildPath (table : SymbolTable) (create : Bool) (template : Option NodeId) :
    Builder (Target × Option PendingBinding) := do
  let (node, pending) ← buildPrimary table create template
  let attr ← (buildEnd table create).onFailure (abandon pending)
  return (⟨node, attr⟩, pending)

def bind (table : SymbolTable) (arena : Arena) (pending : PendingBinding) : SymbolTable × Arena :=
  let arena :=
    if ((arena.node? pending.node).map (·.name)) = some "" then
      arena.modifyNode pending.node fun node => { node with name := pending.key }
    else arena
  table.define arena pending.key pending.node

def build (table : SymbolTable) (arena : Arena) (text : String) (template : Option NodeId)
    (create : Bool) : Except Error Target × SymbolTable × Arena :=
  if beginsIndirection text.toList then
    (resolve table arena text, table, arena)
  else
    match buildPath table create template ⟨Cursor.ofText text, arena⟩ with
    | .error failure progress => (.error failure, table, progress.arena)
    | .ok (target, none) progress => (.ok target, table, progress.arena)
    | .ok (target, some pending) progress => (.ok target, bind table progress.arena pending)

end RecordGraph.Path
