import RecordGraph.Powers
import RecordGraph.Text.LetterCase
import Std.Data.ExtTreeMap

/-!
# Name tables

Attribute names are interned: a table gives each name a small number, and a name with a number can
be looked up both ways. Names carry a count of the references to them and vanish when it reaches
zero; a number is never given out again. Pinned names have fixed numbers and never vanish.

The table of attributes folds ASCII letters to upper case and reads the empty name as `VALUE`.
-/

namespace RecordGraph

@[ext]
structure AttrId where
  number : Nat
deriving DecidableEq, Repr

namespace AttrId

instance : Ord AttrId := ⟨fun left right => compare left.number right.number⟩

instance : Std.TransOrd AttrId where
  eq_swap {left right} :=
    @Std.OrientedCmp.eq_swap Nat compare _ left.number right.number
  isLE_trans {first second third} :=
    @Std.TransCmp.isLE_trans Nat compare _ first.number second.number third.number

instance : Std.LawfulEqOrd AttrId where
  compare_self := Nat.compare_eq_eq.mpr rfl
  eq_of_compare equal := AttrId.ext (Nat.compare_eq_eq.mp equal)

def value : AttrId := ⟨0⟩

def var1 : AttrId := ⟨256⟩

def var2 : AttrId := ⟨257⟩

def test : AttrId := ⟨258⟩

def op : AttrId := ⟨259⟩

def result : AttrId := ⟨260⟩

def start : AttrId := ⟨261⟩

def stop : AttrId := ⟨262⟩

end AttrId

structure NameEntry where
  text : String
  references : Nat
  pinned : Bool
deriving DecidableEq, Repr

structure NameTable where
  entries : Std.ExtTreeMap AttrId NameEntry
  numbers : Std.ExtTreeMap String AttrId
  next : Nat
  foldsCase : Bool
deriving DecidableEq

structure NamesExhausted where
  count : Nat
deriving DecidableEq, Repr

def NamesExhausted.message (exhausted : NamesExhausted) : String :=
  "name table exhausted its id space after " ++ exhausted.count.repr ++ " names"

namespace NameTable

def empty (first : Nat) : NameTable := ⟨∅, ∅, first, false⟩

def lastNumber : Nat := pow2 32 - 1

def insert (table : NameTable) (id : AttrId) (entry : NameEntry) : NameTable :=
  { table with
    entries := table.entries.insert id entry
    numbers := table.numbers.insert entry.text id }

def pinned : List (AttrId × String) :=
  [(.value, "VALUE"), (.var1, "VAR1"), (.var2, "VAR2"), (.test, "TEST"), (.op, "OP"),
    (.result, "RESULT"), (.start, "START"), (.stop, "STOP")]

def attributes : NameTable :=
  pinned.foldl (fun table (id, text) => table.insert id ⟨text, 1, true⟩) ⟨∅, ∅, 263, true⟩

instance : Inhabited NameTable := ⟨attributes⟩

def fold (table : NameTable) (name : String) : String :=
  if table.foldsCase then
    if name = "" then "VALUE" else Text.asciiUpperCase name
  else name

def query (table : NameTable) (name : String) : Option AttrId :=
  table.numbers[table.fold name]?

def entry? (table : NameTable) (id : AttrId) : Option NameEntry :=
  table.entries[id]?

def lookup (table : NameTable) (id : AttrId) : Option String :=
  (table.entry? id).map (·.text)

def size (table : NameTable) : Nat :=
  table.entries.size

def references (table : NameTable) (id : AttrId) : Nat :=
  ((table.entry? id).map (·.references)).getD 0

def countReferences (table : NameTable) (id : AttrId) (change : Nat → Nat) : NameTable :=
  { table with
    entries := table.entries.modify id fun entry =>
      { entry with references := change entry.references } }

def retain (table : NameTable) (id : AttrId) : NameTable :=
  table.countReferences id (· + 1)

def insertNew (table : NameTable) (folded : String) :
    Except NamesExhausted AttrId × NameTable :=
  if table.next < lastNumber then
    let id : AttrId := ⟨table.next⟩
    (.ok id, { table.insert id ⟨folded, 1, false⟩ with next := table.next + 1 })
  else (.error ⟨table.size⟩, table)

def tryAdd (table : NameTable) (name : String) : Except NamesExhausted AttrId × NameTable :=
  match table.query name with
  | some id => (.ok id, table.retain id)
  | none => table.insertNew (table.fold name)

def add (table : NameTable) (name : String) : Except NamesExhausted (AttrId × NameTable) :=
  match table.tryAdd name with
  | (.ok id, later) => .ok (id, later)
  | (.error exhausted, _) => .error exhausted

def intern (table : NameTable) (name : String) : Except NamesExhausted (AttrId × NameTable) :=
  match table.query name with
  | some id => .ok (id, table)
  | none => table.add name

def addExisting (table : NameTable) (name : String) : Option AttrId × NameTable :=
  match table.query name with
  | some id => (some id, table.retain id)
  | none => (none, table)

def release (table : NameTable) (id : AttrId) : NameTable :=
  match table.entry? id with
  | none => table
  | some entry =>
    if entry.pinned then table
    else if entry.references ≤ 1 then
      { table with
        entries := table.entries.erase id
        numbers := table.numbers.erase entry.text }
    else table.countReferences id (· - 1)

example : attributes.query "" = some .value := by decide +kernel
example : attributes.query "Var2" = some .var2 := by decide +kernel
example : (attributes.release .value).query "value" = some .value := by decide +kernel

end NameTable
end RecordGraph
