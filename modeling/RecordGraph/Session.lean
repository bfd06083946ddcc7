import RecordGraph.Document.Loading
import RecordGraph.Document.Outline
import RecordGraph.Document.Writing
import RecordGraph.FileTree
import RecordGraph.Walk

/-!
# Sessions

A session holds one loaded document and everything needed to inspect it. It is an owner of the root,
so symbol tables over the document can bind the root and release it again.

A query or a walk works on a table of its own, in which the root and the records at the top level
are bound under their names; a later record shadows an earlier one of the same name.
-/

namespace RecordGraph

open Document (Warning)

structure Session where
  arena : Arena
  registry : Registry
  root : NodeId
  warnings : List Warning
  origin : String

structure Report where
  text : String
  session : Session
  failures : List Failure

namespace Session

def load (name source origin : String) (options : Document.Options) : Session :=
  let (root, arena) := Arena.empty.allocKind name .base
  let arena := arena.retain root
  let (warnings, arena) := Document.load source arena .standard root options
  ⟨arena, .standard, root, warnings, origin⟩

def ofSource (name source : String) (options : Document.Options) : Session :=
  load name source name options

def ofFile (path source : String) (options : Document.Options) : Session :=
  load (FileName.stem path) source path options

def openFile (files : FileTree) (path : String) (options : Document.Options) :
    Except ReadError Session :=
  (files.read path).map fun source => ofFile path source options

def warningReport (session : Session) : String :=
  String.join (session.warnings.map fun warning =>
    session.origin ++ ": " ++ warning.message ++ "\n")

def bindNamed (state : SymbolTable × Arena) (node : NodeId) : SymbolTable × Arena :=
  match state with
  | (table, arena) =>
    let name := arena.name node
    if name = "" then (table, arena) else table.define arena name node

def symbols (session : Session) (robust : Bool) : SymbolTable × Arena :=
  let table : SymbolTable :=
    { SymbolTable.empty (session.arena.name session.root) with
      robust
      registry := session.registry }
  let top := session.arena.children session.root
  top.foldl bindNamed (bindNamed (table, session.arena) session.root)

def dump (session : Session) : String :=
  Document.childrenText session.arena session.registry .standard session.root

def outline (session : Session) : String :=
  Document.outline session.arena session.registry session.root

def queryLine (path : String) (value : Value) : String :=
  if value.isAbsent then path ++ ": absent\n" else path ++ " = " ++ value.toText ++ "\n"

def query (session : Session) (paths : List String) (robust : Bool) : Report :=
  let (table, arena) := session.symbols robust
  let text := String.join (paths.map fun path => queryLine path (table.query arena path))
  let failures := paths.flatMap fun path => (table.failuresOf arena path).map .path
  let (_, arena) := table.clear arena
  ⟨text, { session with arena }, failures⟩

def walkLine (registry : Registry) (arena : Arena) (id : NodeId) : String :=
  match arena.node? id with
  | none => ""
  | some node =>
    let typeName := (registry.typeName? node.nodeType).getD ""
    let value :=
      match node.value? with
      | some value => " = " ++ value.toText
      | none => ""
    typeName ++ " : " ++ node.name ++ value ++ "\n"

def walk (session : Session) (robust : Bool) (rounds : Nat) : Option Report :=
  let (table, arena) := session.symbols robust
  let start := Walk.start arena (some table) session.root .frames
  let visit (text : String) (walk : Walk) (node : NodeId) : String :=
    text ++ walkLine session.registry walk.arena node
  (start.fold rounds visit rounds "").map fun (text, walk) =>
    let arena :=
      match walk.table with
      | some table => (table.clear walk.arena).2
      | none => walk.arena
    ⟨text, { session with arena }, walk.failures.toList⟩

def padRight (width : Nat) (text : String) : String :=
  text ++ String.ofList (List.replicate (width - text.length) ' ')

def hexWord (word : UInt32) : String :=
  let digits := Nat.toDigits 16 word.toNat
  "0x" ++ String.ofList (List.replicate (8 - digits.length) '0' ++ digits)

def typeList (registry : Registry) : String :=
  String.join (registry.sorted.map fun entry =>
    let label :=
      match entry.factory with
      | some factory => "  (" ++ factory.label ++ ")"
      | none => ""
    padRight 12 entry.name ++ padRight 10 entry.nodeType.kind.name ++
      hexWord entry.nodeType.pack ++ label ++ "\n")

end Session
end RecordGraph
