import RecordGraph.Arena.Basic

/-!
# Changes of attributes

The attributes of a live node are set and erased by their names. Through the list of the node they
are also changed in place: a value that is there is overwritten, or the whole list is cleared. Where
a name is not in the table no attribute has it, and only the list may come into being.
-/

namespace RecordGraph

def Node.modifyAttrs (node : Node) (create : Bool) (change : AttrList → AttrList) : Node :=
  match node.attrs with
  | some list => { node with attrs := some (change list) }
  | none => if create then { node with attrs := some (change .empty) } else node

inductive AttrChange where
  | store (name : String) (value : Value)
  | overwrite (name : String) (value : Value)
  | erase (name : String)
  | clear
deriving DecidableEq, Repr

inductive AttrAction where
  /-- Change the attributes of a node. With `create` its list comes into being in any case. -/
  | edit (id : NodeId) (change : AttrChange) (create : Bool)
  | take (id : NodeId)
  | add (name : String)
  | intern (name : String)
  | retain (attr : AttrId)
deriving DecidableEq, Repr

def AttrAction.change? : AttrAction → Option (NodeId × AttrChange)
  | .edit id change _ => some (id, change)
  | .take id => some (id, .clear)
  | .add _ | .intern _ | .retain _ => none

namespace Arena

def overwriteAttr (arena : Arena) (id : NodeId) (name : String) (value : Value) (create : Bool) :
    Arena :=
  match arena.names.query name with
  | some attr => arena.modifyNode id (·.modifyAttrs create (·.modify attr value))
  | none => if create then arena.modifyNode id (·.ensureAttrs) else arena

def clearAttrs (arena : Arena) (id : NodeId) (create : Bool) : Arena :=
  arena.modifyNode id (·.modifyAttrs create fun _ => .empty)

def changeAttrs (arena : Arena) (id : NodeId) (create : Bool) : AttrChange → Arena
  | .store name value => arena.setAttr id name value
  | .overwrite name value => arena.overwriteAttr id name value create
  | .erase name => (arena.eraseAttr id name create).2
  | .clear => arena.clearAttrs id create

def accepts (arena : Arena) (id : NodeId) (change : AttrChange) : Bool :=
  arena.contains id &&
    match change with
    | .store name _ => (arena.names.intern name).isOk
    | _ => true

def act (arena : Arena) : AttrAction → Arena
  | .edit id change create => arena.changeAttrs id create change
  | .take id => (arena.takeAttrs id).2
  | .add name =>
    match arena.names.add name with
    | .ok (_, names) => { arena with names }
    | .error _ => arena
  | .intern name =>
    match arena.names.intern name with
    | .ok (_, names) => { arena with names }
    | .error _ => arena
  | .retain attr => { arena with names := arena.names.retain attr }

end Arena
end RecordGraph
