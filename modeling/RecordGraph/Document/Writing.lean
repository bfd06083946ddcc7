import RecordGraph.Document.Page
import RecordGraph.Document.Quoting
import RecordGraph.Registry
import Std.Data.ExtTreeSet

/-!
# Writing documents

A node is written as a record: its name, its type unless the reader would infer that anyway, and
its attributes. Attributes that would go beyond the line width continue on the next line, below the
first attribute. Children follow as a block between braces, one step further in.

A node that stands inside its own block is written without its block, so writing ends for cyclic
structures too.
-/

namespace RecordGraph.Document

structure Layout where
  width : Nat
  indent : Nat
deriving DecidableEq, Repr

namespace Layout

def standard : Layout := ⟨78, 2⟩

instance : Inhabited Layout := ⟨standard⟩

end Layout

section

variable (arena : Arena) (registry : Registry) (layout : Layout)

def impliesBase (node : Node) : Bool :=
  node.kind == .base && inferKind node.name node.attrs == some .base

def typePart (node : Node) : String :=
  let typeName := (registry.typeName? node.nodeType).getD ""
  if typeName = "" || impliesBase node then "" else "=" ++ typeName

def keyText (id : AttrId) : String :=
  if id = .value then "" else (arena.names.lookup id).getD ""

/-- Write one attribute after a comma. `mark` is the column below which attributes continue; an
attribute that begins there stays even if it is too long. -/
def writeAttr (mark : Nat) (page : Page) (attr : AttrId × Value) : Page :=
  let key := keyText arena attr.1
  let text := attr.2.written
  let page := page.write ","
  let tooWide := layout.width < page.column + (key.length + text.length + 1)
  let page := if tooWide && page.column != mark then page.endLine.space mark else page
  let page := page.write key
  if text ≠ "" || key = "" then (page.write "=").write text else page

def writeRecord (level : Nat) (node : Node) (page : Page) : Page :=
  let page := ((page.space level).write node.name).write (typePart registry node)
  let mark := level + node.name.length + 1
  let attrs := (node.attrs.map (·.entries)).getD []
  (attrs.foldl (writeAttr arena layout mark) page).endLine

/-- Write a node and what is below it, inside the blocks of the nodes in the slots `blocks`. Each
level has a block of its own, so there are no more levels than live nodes. -/
def writeNode : Nat → Std.ExtTreeSet Nat → Nat → Page → NodeId → Page
  | 0, _, _, page, _ => page
  | levels + 1, blocks, level, page, id =>
    match arena.node? id with
    | none => page
    | some node =>
      let page := writeRecord arena registry layout level node page
      if node.childArray.isEmpty || blocks.contains id.index then page
      else
        let page := ((page.space level).write "\x7b").endLine
        let page :=
          node.childArray.foldl
            (writeNode levels (blocks.insert id.index) (level + layout.indent)) page
        ((page.space level).write "\x7d").endLine

def levels : Nat := arena.slots.size + 1

def nodeText (node : NodeId) : String :=
  (writeNode arena registry layout (levels arena) ∅ 0 .blank node).text

def childrenText (node : NodeId) : String :=
  let blocks := (∅ : Std.ExtTreeSet Nat).insert node.index
  ((arena.children node).foldl
    (writeNode arena registry layout (levels arena) blocks 0) .blank).text

end
end RecordGraph.Document
