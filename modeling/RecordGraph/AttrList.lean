import RecordGraph.NameTable
import RecordGraph.Value.Order

/-!
# Attribute lists

The attributes of a node are pairs of a name and a value. Names are unique, and the pairs stand in
the order in which their names were first set.
-/

namespace RecordGraph

structure AttrList where
  placed : Std.ExtTreeMap AttrId (Nat × Value)
  order : Std.ExtTreeMap Nat AttrId
  next : Nat
deriving DecidableEq

namespace AttrList

def empty : AttrList := ⟨∅, ∅, 0⟩

instance : Inhabited AttrList := ⟨empty⟩

def entries (list : AttrList) : List (AttrId × Value) :=
  list.order.toList.filterMap fun (_, id) => list.placed[id]?.map fun (_, value) => (id, value)

def size (list : AttrList) : Nat :=
  list.placed.size

def isEmpty (list : AttrList) : Bool :=
  list.placed.isEmpty

def set (list : AttrList) (id : AttrId) (value : Value) : AttrList :=
  match list with
  | ⟨placed, order, next⟩ =>
    match placed[id]? with
    | some (place, _) => ⟨placed.insert id (place, value), order, next⟩
    | none => ⟨placed.insert id (next, value), order.insert next id, next + 1⟩

def single (id : AttrId) (value : Value) : AttrList := empty.set id value

def find? (list : AttrList) (id : AttrId) : Option Value :=
  list.placed[id]?.map (·.2)

def contains (list : AttrList) (id : AttrId) : Bool :=
  list.placed.contains id

def modify (list : AttrList) (id : AttrId) (value : Value) : AttrList :=
  if list.contains id then list.set id value else list

def erase (list : AttrList) (id : AttrId) : AttrList :=
  match list.placed[id]? with
  | some (place, _) => ⟨list.placed.erase id, list.order.erase place, list.next⟩
  | none => list

def ofList (pairs : List (AttrId × Value)) : AttrList :=
  pairs.foldl (fun list pair => list.set pair.1 pair.2) empty

def intOf (list : AttrList) (id : AttrId) : Int64 :=
  ((list.find? id).map Value.toInt).getD 0

def realOf (list : AttrList) (id : AttrId) : Binary64 :=
  ((list.find? id).map Value.toReal).getD .notANumber

def textOf (list : AttrList) (id : AttrId) : String :=
  ((list.find? id).map Value.toText).getD ""

def equals (left right : AttrList) : Bool :=
  left.size == right.size &&
    (left.entries.zip right.entries).all fun (first, second) =>
      first.1 == second.1 && first.2.equals second.2

@[simp] theorem find?_empty (id : AttrId) : empty.find? id = none := by
  simp [find?, empty]

@[simp] theorem find?_set_same (list : AttrList) (id : AttrId) (value : Value) :
    (list.set id value).find? id = some value := by
  simp only [set, find?]
  split <;> simp

theorem find?_set_other (list : AttrList) {id asked : AttrId} (different : asked ≠ id)
    (value : Value) : (list.set id value).find? asked = list.find? asked := by
  have ne : compare id asked ≠ .eq := fun equal =>
    different (Std.LawfulEqCmp.eq_of_compare equal).symm
  simp only [set, find?]
  split <;> simp [Std.ExtTreeMap.getElem?_insert, ne]

example : ((single .start (.int 1)).set .stop (.int 9)).entries =
    [(.start, .int 1), (.stop, .int 9)] := by decide +kernel

example : (((single .stop (.int 1)).set .start (.int 9)).set .stop (.int 2)).entries =
    [(.stop, .int 2), (.start, .int 9)] := by decide +kernel

end AttrList

def NameTable.internAttrs (names : NameTable) (attrs : List (String × Value)) :
    AttrList × NameTable :=
  attrs.foldl
    (fun (list, names) (name, value) =>
      match names.intern name with
      | .ok (id, names) => (list.set id value, names)
      | .error _ => (list, names))
    (.empty, names)

end RecordGraph
