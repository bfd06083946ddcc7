import RecordGraph.Document.Item
import RecordGraph.Registry

/-!
# Loading documents

Records become nodes, built by a registry and appended to the node of the innermost open block. An
opening brace opens the block of the record in front of it, and a closing brace makes the record
whose block it closes the latest one again. The outermost block is that of the caller's node.
-/

namespace RecordGraph.Document

structure Load where
  arena : Arena
  root : NodeId
  blocks : List NodeId
  latest : Option NodeId
  warnings : Array Warning

namespace Load

def parent (load : Load) : NodeId :=
  load.blocks.head?.getD load.root

def warn (load : Load) (line : Nat) (problem : Problem) : Load :=
  { load with warnings := load.warnings.push (.on line problem) }

def addRecord (load : Load) (registry : Registry) (line : Nat) (record : Record) : Load :=
  let load := if record.unfinished then load.warn line .unexpectedEnd else load
  let unknown := record.typeName ≠ "" ∧ (registry.typeOf? record.typeName).isNone
  let load := if unknown then load.warn line (.unknownType record.typeName) else load
  let parent := load.parent
  match load with
  | ⟨arena, root, blocks, _, warnings⟩ =>
    let (attrs, arena) := arena.internAttrs record.attrs
    let request : BuildRequest :=
      { name := record.name
        nodeType := none
        typeName := if record.typeName = "" then none else some record.typeName
        attrs := if attrs.isEmpty then none else some attrs
        parent := some parent }
    let (node, arena) := registry.build arena request
    ⟨arena, root, blocks, node, warnings⟩

def openBlock (load : Load) (line : Nat) : Load :=
  match load.latest with
  | some node =>
    if node ≠ load.parent ∧ load.arena.contains node then
      { load with arena := load.arena.ensureChildren node, blocks := node :: load.blocks }
    else load.warn line .unmatchedOpen
  | none => load.warn line .unmatchedOpen

def closeBlock (load : Load) (line : Nat) : Load :=
  match load.blocks with
  | node :: blocks => { load with blocks, latest := some node }
  | [] => load.warn line .unmatchedClose

def add (load : Load) (registry : Registry) (line : Nat) : Item → Load
  | .record record => load.addRecord registry line record
  | .malformed problem => { load.warn line problem with latest := none }
  | .opening => load.openBlock line
  | .closing => load.closeBlock line
  | .nothing => load

def finish (load : Load) (line : Nat) : Load :=
  if load.blocks.isEmpty then load else load.warn line .unexpectedEnd

def addAll (registry : Registry) (options : Options) : Nat → Cursor → Load → Load
  | 0, _, load => load
  | rounds + 1, cursor, load =>
    match Item.next? options cursor with
    | none => load.finish (cursor.skip isGapOrLineEnd).line
    | some (item, line, cursor) =>
      addAll registry options rounds cursor (load.add registry line item)

end Load

def load (source : String) (arena : Arena) (registry : Registry) (parent : NodeId)
    (options : Options) : List Warning × Arena :=
  if arena.contains parent then
    let cursor := Cursor.ofText source
    let start : Load := ⟨arena.ensureChildren parent, parent, [], none, #[]⟩
    let load := start.addAll registry options (cursor.rest.length + 1) cursor
    (load.warnings.toList, load.arena)
  else ([], arena)

end RecordGraph.Document
