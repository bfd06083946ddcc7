import RecordGraph.Document.Page
import RecordGraph.Registry
import Std.Data.ExtTreeSet

/-!
# Outlines

An outline has a line for each node: the type, the name, and the length of the child list if there
is one. Nodes stand below their parents, and a node inside itself is not expanded again.
-/

namespace RecordGraph.Document

def columnWidth : Nat := 20

def outlineIndent : Nat := 2

def padLeft (width : Nat) (text : String) : String :=
  String.ofList (List.replicate (width - text.length) ' ') ++ text

section

variable (arena : Arena) (registry : Registry)

def outlineHead (level : Nat) (node : Node) (page : Page) : Page :=
  let typeName := (registry.typeName? node.nodeType).getD ""
  let page := (page.space level).write typeName
  let page := page.space (columnWidth - (level + typeName.utf8ByteSize) - 2)
  (page.write ": ").write node.name

def outlineLength (node : Node) (count : Nat) (page : Page) : Page :=
  let page := page.space (max 1 (columnWidth - node.name.length))
  page.write ("[LIST " ++ padLeft 3 count.repr ++ "]")

def outlineNode : Nat → Std.ExtTreeSet Nat → Nat → Page → NodeId → Page
  | 0, _, _, page, _ => page
  | levels + 1, lists, level, page, id =>
    match arena.node? id with
    | none => page
    | some node =>
      let page := outlineHead registry level node page
      match node.children with
      | none => page.endLine
      | some children =>
        let page := (outlineLength node children.size page).endLine
        if lists.contains id.index then page
        else
          children.foldl
            (outlineNode levels (lists.insert id.index) (level + outlineIndent)) page

def outline (root : NodeId) : String :=
  (outlineNode arena registry (arena.slots.size + 1) ∅ 0 .blank root).text

end
end RecordGraph.Document
