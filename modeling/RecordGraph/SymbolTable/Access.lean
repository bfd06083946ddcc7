import RecordGraph.Path.Creation
import RecordGraph.Path.Interpolation

/-!
# Reading and storing through a symbol table

Operations that address nodes and values by paths. A failed path is nothing to the caller: no node,
or an absent value. The reasons are given along with the results where a caller may want to report
them.
-/

namespace RecordGraph

open RecordGraph.Path (Target Cursor Reader)

/-- What an operation on a table and an arena leaves behind: its result, the state after it, and
the reasons of the paths that failed on the way. -/
structure Outcome (α : Type) where
  result : α
  table : SymbolTable
  arena : Arena
  failures : List Path.Error

namespace SymbolTable

/-! ## Reading -/

def resolve (table : SymbolTable) (arena : Arena) (path : String) : Target :=
  match Path.resolve table arena path with
  | .ok target => target
  | .error _ => .nothing

def failuresOf (table : SymbolTable) (arena : Arena) (path : String) : List Path.Error :=
  match Path.resolve table arena path with
  | .ok _ => []
  | .error failure => [failure]

def get (table : SymbolTable) (arena : Arena) (path : String) : Option NodeId :=
  (table.resolve arena path).node

def query (table : SymbolTable) (arena : Arena) (path : String) : Value :=
  (table.resolve arena path).value arena

def primaryAt (table : SymbolTable) (arena : Arena) (path : String) : Option NodeId × Cursor :=
  match (Path.primary table arena (Path.inner table arena)).run (Cursor.ofText path) with
  | .ok node cursor => (node, cursor)
  | .error _ cursor => (none, cursor)

def find (table : SymbolTable) (arena : Arena) (path : String) : Option NodeId :=
  (table.primaryAt arena path).1

def identifierAt (table : SymbolTable) (arena : Arena) (text : String) : String :=
  match (Path.identifier table arena (Path.inner table arena)).run (Cursor.ofText text) with
  | .ok key _ => key
  | .error _ _ => ""

def resolveAttr (table : SymbolTable) (arena : Arena) (path attr : String) : Target :=
  let (node, cursor) := table.primaryAt arena path
  if !table.robust && !cursor.rest.isEmpty then .nothing
  else
    let name := table.identifierAt arena attr
    ⟨node, if name = "" then none else arena.names.query name⟩

def queryAttr (table : SymbolTable) (arena : Arena) (path attr : String) : Value :=
  (table.resolveAttr arena path attr).value arena

def fillIn (table : SymbolTable) (arena : Arena) (text : String) : String :=
  Path.fillIn table arena text

/-! ## Storing -/

def remove (table : SymbolTable) (arena : Arena) (path : String) : Bool × SymbolTable × Arena :=
  let key := table.identifierAt arena path
  ((table.lookup key).isSome, table.undefine arena key)

def replace (table : SymbolTable) (arena : Arena) (path : String) (template : Option NodeId)
    (create : Bool) : Outcome (Option NodeId) :=
  match Path.build table arena path template create with
  | (.ok target, table, arena) => ⟨target.node, table, arena, []⟩
  | (.error failure, table, arena) => ⟨none, table, arena, [failure]⟩

def add (table : SymbolTable) (arena : Arena) (path : String) (node : NodeId) :
    Outcome (Option NodeId) :=
  table.replace arena path (some node) true

def destination (table : SymbolTable) (arena : Arena) :
    Reader (Option NodeId × Option String) := do
  let node ← Path.primary table arena (Path.inner table arena)
  let name ←
    if (← Reader.peek) = some '.' then
      Reader.advance
      some <$> Path.identifier table arena (Path.inner table arena)
    else pure none
  let cursor ← getThe Cursor
  if !table.robust && !cursor.rest.isEmpty then throw (.trailingInput cursor.position)
  else return (node, name)

/-- The attribute that a destination names: `VALUE` if it names none, and none if its name is
empty. With `create` the name is interned. -/
def destinationAttr (arena : Arena) (name : Option String) (create : Bool) :
    Option AttrId × Arena :=
  match name with
  | none => (some .value, arena)
  | some "" => (none, arena)
  | some name =>
    if create then Path.internAttr name arena else (arena.names.query name, arena)

def store (arena : Arena) (node : NodeId) (attr : AttrId) (value : Value) (create : Bool) : Arena :=
  arena.modifyNode node fun node =>
    if create || node.attrs.isSome then node.setAttr attr value else node

def set (table : SymbolTable) (arena : Arena) (path : String) (value : Value) (create : Bool) :
    Outcome (Option NodeId) :=
  match (table.destination arena).run (Cursor.ofText path) with
  | .error _ _ => ⟨none, table, arena, []⟩
  | .ok (node, name) _ =>
    let (attr, arena) := destinationAttr arena name create
    match node, attr with
    | some node, some attr => ⟨some node, table, store arena node attr value create, []⟩
    | some node, none => ⟨some node, table, arena, []⟩
    | none, none => ⟨none, table, arena, []⟩
    | none, some attr =>
      if create then
        let request := { BuildRequest.named "" with attrs := some (.single attr value) }
        match table.registry.build arena request with
        | (none, arena) => ⟨none, table, arena, []⟩
        | (some built, arena) =>
          let outcome := table.add arena path built
          { outcome with arena := outcome.arena.releaseIfUnowned built }
      else ⟨none, table, arena, []⟩

def setAttr (table : SymbolTable) (arena : Arena) (path attr : String) (value : Value)
    (create : Bool) : Option NodeId × Arena :=
  let (key, arena) :=
    if create then Path.internAttr attr arena else (arena.names.query attr, arena)
  match table.find arena path, key with
  | some node, some key =>
    match arena.node? node with
    | some content =>
      if create || content.attrs.isSome then (some node, store arena node key value create)
      else (none, arena)
    | none => (none, arena)
  | _, _ => (none, arena)

def convert (value : Value) (kind : Kind) : Value :=
  match kind, value with
  | _, .absent => .absent
  | .int, .int number => .int number
  | .int, value => .int (integerPrefix value.toText.toList)
  | .real, .real number => .real number
  | .real, value => .real (realPrefix value.toText.toList)
  | .string, value => .text value.toText
  | _, value => value

def assign (table : SymbolTable) (arena : Arena) (path : String) (value : Value) :
    Outcome (Option NodeId) :=
  let failures := table.failuresOf arena path
  let kind := (table.get arena path).bind arena.kind?
  let outcome := table.set arena path ((kind.map (convert value)).getD value) true
  { outcome with failures := failures ++ outcome.failures }

end SymbolTable
end RecordGraph
