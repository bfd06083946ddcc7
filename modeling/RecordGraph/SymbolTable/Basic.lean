import RecordGraph.DepthLimit
import RecordGraph.Registry

/-!
# Symbol tables

A symbol table binds keys to nodes of an arena. Each binding is an owner of its node, so a bound
node outlives the structure that it came from. Keys are told apart by case and are kept in order.
-/

namespace RecordGraph

abbrev Bindings := Std.ExtTreeMap String NodeId

structure SymbolTable where
  name : String
  bindings : Bindings
  robust : Bool
  limit : DepthLimit
  registry : Registry

namespace SymbolTable

def empty (name : String) : SymbolTable :=
  ⟨name, ∅, false, .paths, .standard⟩

def lookup (table : SymbolTable) (key : String) : Option NodeId :=
  table.bindings[key]?

def size (table : SymbolTable) : Nat :=
  table.bindings.size

def define (table : SymbolTable) (arena : Arena) (key : String) (node : NodeId) :
    SymbolTable × Arena :=
  let old := table.lookup key
  if old = some node then (table, arena)
  else
    let arena := arena.retain node
    let arena :=
      match old with
      | some old => arena.release old
      | none => arena
    ({ table with bindings := table.bindings.insert key node }, arena)

def undefine (table : SymbolTable) (arena : Arena) (key : String) : SymbolTable × Arena :=
  match table.lookup key with
  | some old => ({ table with bindings := table.bindings.erase key }, arena.release old)
  | none => (table, arena)

def clear (table : SymbolTable) (arena : Arena) : SymbolTable × Arena :=
  ({ table with bindings := ∅ },
    table.bindings.toList.foldl (fun arena binding => arena.release binding.2) arena)

def fork (table : SymbolTable) (arena : Arena) : SymbolTable × Arena :=
  (table, table.bindings.toList.foldl (fun arena binding => arena.retain binding.2) arena)

end SymbolTable
end RecordGraph
