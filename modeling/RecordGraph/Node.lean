import RecordGraph.AttrList
import RecordGraph.Kind

/-!
# Nodes

A node is a named record: a type, attributes and children. Either list may be missing altogether,
which is not the same as being empty. Children are given by their ids in an arena, and only the
arena changes child lists, so that it can count them.
-/

namespace RecordGraph

structure NodeId where
  index : Nat
  generation : Nat
deriving DecidableEq, Repr, Inhabited

structure Status where
  failed : Bool
  bad : Bool
deriving DecidableEq, Repr

namespace Status

def good : Status := ⟨false, false⟩

def join (status marks : Status) : Status :=
  ⟨status.failed || marks.failed, status.bad || marks.bad⟩

def without (status marks : Status) : Status :=
  ⟨status.failed && !marks.failed, status.bad && !marks.bad⟩

end Status

structure Node where
  name : String
  nodeType : NodeType
  attrs : Option AttrList
  children : Option (Array NodeId)
  status : Status
  shareable : Bool
deriving DecidableEq

namespace Node

def ofType (name : String) (nodeType : NodeType) : Node :=
  ⟨name, nodeType, none, none, .good, true⟩

def ofKind (name : String) (kind : Kind) : Node :=
  { ofType name (.ofKind kind) with children := if kind.isListLike then some #[] else none }

def kind (node : Node) : Kind := node.nodeType.kind

def childArray (node : Node) : Array NodeId :=
  node.children.getD #[]

def hasChildren (node : Node) : Bool :=
  !node.childArray.isEmpty

def attr? (node : Node) (id : AttrId) : Option Value :=
  node.attrs.bind (·.find? id)

def value? (node : Node) : Option Value :=
  node.attr? .value

def setAttr (node : Node) (id : AttrId) (value : Value) : Node :=
  match node with
  | ⟨name, nodeType, attrs, children, status, shareable⟩ =>
    ⟨name, nodeType, some ((attrs.getD .empty).set id value), children, status, shareable⟩

def ensureAttrs (node : Node) : Node :=
  { node with attrs := some (node.attrs.getD .empty) }

def eraseAttr (node : Node) (id : AttrId) (create : Bool) : Node :=
  match node.attrs with
  | some list => { node with attrs := some (list.erase id) }
  | none => if create then node.ensureAttrs else node

def ensureChildren (node : Node) : Node :=
  match node.children with
  | some _ => node
  | none => { node with children := some #[] }

def push (node : Node) (child : NodeId) : Node :=
  match node with
  | ⟨name, nodeType, attrs, some children, status, shareable⟩ =>
    ⟨name, nodeType, attrs, some (children.push child), status, shareable⟩
  | ⟨name, nodeType, attrs, none, status, shareable⟩ =>
    ⟨name, nodeType, attrs, some #[child], status, shareable⟩

def mark (node : Node) (marks : Status) : Node :=
  { node with status := node.status.join marks }

def unmark (node : Node) (marks : Status) : Node :=
  { node with status := node.status.without marks }

def isGood (node : Node) : Bool :=
  !node.status.failed && !node.status.bad

def isFailed (node : Node) : Bool :=
  node.status.failed || node.status.bad

def setPackedType (node : Node) (word : UInt32) : Node :=
  match NodeType.unpack? word with
  | some nodeType => { node with nodeType }
  | none => node

@[simp] theorem childArray_ensureChildren (node : Node) :
    node.ensureChildren.childArray = node.childArray := by
  rcases node with ⟨name, nodeType, attrs, _ | children, status, shareable⟩ <;> rfl

@[simp] theorem childArray_push (node : Node) (child : NodeId) :
    (node.push child).childArray = node.childArray.push child := by
  obtain ⟨_, _, _, children, _, _⟩ := node
  cases children <;> rfl

@[simp] theorem nodeType_ensureChildren (node : Node) :
    node.ensureChildren.nodeType = node.nodeType := by
  rcases node with ⟨name, nodeType, attrs, _ | children, status, shareable⟩ <;> rfl

@[simp] theorem nodeType_push (node : Node) (child : NodeId) :
    (node.push child).nodeType = node.nodeType := by
  rcases node with ⟨name, nodeType, attrs, _ | children, status, shareable⟩ <;> rfl

@[simp] theorem attrs_ensureChildren (node : Node) : node.ensureChildren.attrs = node.attrs := by
  rcases node with ⟨name, nodeType, attrs, _ | children, status, shareable⟩ <;> rfl

@[simp] theorem attrs_push (node : Node) (child : NodeId) :
    (node.push child).attrs = node.attrs := by
  rcases node with ⟨name, nodeType, attrs, _ | children, status, shareable⟩ <;> rfl

@[simp] theorem attr?_setAttr_same (node : Node) (id : AttrId) (value : Value) :
    (node.setAttr id value).attr? id = some value := by
  simp [setAttr, attr?]

theorem attr?_setAttr_other (node : Node) {id asked : AttrId} (different : asked ≠ id)
    (value : Value) : (node.setAttr id value).attr? asked = node.attr? asked := by
  cases attrs : node.attrs <;> simp [setAttr, attr?, attrs, AttrList.find?_set_other _ different]

end Node
end RecordGraph
