import RecordGraph.Proofs.Arena.Acyclic
import RecordGraph.Proofs.Arena.Attrs
import RecordGraph.Proofs.Document.Records

/-!
# Unfoldings

The nodes below a node form a graph, where children may be shared and may lead back to their
parents. A document is a tree. The graph unfolds to one: shared nodes are repeated, and a node that
stands inside its own children appears there without children.

The nodes that are not open on the way down become fewer with each level, so an unfolding is finite.
-/

namespace RecordGraph

inductive Tree where
  | node (name : String) (nodeType : NodeType) (attrs : List (String × Value))
    (children : List Tree)

def Tree.withoutReturns : Tree → Tree
  | node name nodeType attrs children =>
    node name nodeType (Document.readAttrs attrs) (children.map withoutReturns)

namespace Node

def namedAttrs (node : Node) (names : NameTable) : List (String × Value) :=
  node.entries.map fun (id, value) => ((names.lookup id).getD "", value)

/-- A document can hold the node: it has an untagged type, a name that a record can have,
attributes with names that can be written, and values that can. -/
structure Writable (node : Node) (names : NameTable) : Prop where
  untagged : node.nodeType.tag = 0
  isName : Document.IsName node.name
  keys : ∀ entry ∈ node.entries,
    ∃ key, names.lookup entry.1 = some key ∧ (entry.1 ≠ .value → Document.IsKey key)
  values : ∀ entry ∈ node.entries, entry.2.Writable

instance (value : Value) : Decidable value.Writable :=
  match value with
  | .int _ | .text _ | .real (.finite _ _) => .isTrue trivial
  | .absent | .handle _ | .real .notANumber | .real (.infinite _) => .isFalse id

instance (node : Node) (names : NameTable) : Decidable (node.Writable names) :=
  decidable_of_iff (node.nodeType.tag = 0 ∧
      (node.name.toList.head?.all Document.beginsName = true ∧
        node.name.toList.all (fun character => !Document.nameStops.contains character) = true) ∧
      (node.entries.all fun entry => (names.lookup entry.1).any fun key =>
        decide (entry.1 = .value) ||
          key.toList.all fun character => !Document.keyStops.contains character) = true ∧
      (node.entries.all fun entry => decide entry.2.Writable) = true) <| by
    simp only [Option.all_eq_true, List.all_eq_true, Option.any_eq_true, Bool.or_eq_true,
      decide_eq_true_eq, Bool.not_eq_true', or_iff_not_imp_left]
    constructor
    · rintro ⟨untagged, ⟨begins, characters⟩, keys, values⟩
      exact ⟨untagged, ⟨begins, characters⟩, keys, values⟩
    · intro writable
      exact ⟨writable.untagged, ⟨writable.isName.begins, writable.isName.characters⟩,
        writable.keys, writable.values⟩

end Node

namespace Arena

def currentIds (arena : Arena) : Finset NodeId :=
  (Finset.range arena.slots.size).image fun index =>
    ⟨index, (arena.slots[index]?.map (·.generation)).getD 0⟩

def unopened (arena : Arena) (path : List NodeId) : Nat :=
  (arena.currentIds.filter (· ∉ path)).card

theorem mem_currentIds {arena : Arena} {id : NodeId} {node : Node}
    (found : arena.node? id = some node) : id ∈ arena.currentIds := by
  rcases Option.map_eq_some_iff.mp found with ⟨⟨_, owners⟩, live, rfl⟩
  have slot := live?_eq_some_iff.mp live
  have inside := (Array.getElem?_eq_some_iff.mp slot).1
  refine Finset.mem_image.mpr ⟨id.index, Finset.mem_range.mpr inside, ?_⟩
  rw [slot]
  rfl

theorem unopened_cons_lt {arena : Arena} {path : List NodeId} {id : NodeId} {node : Node}
    (found : arena.node? id = some node) (closed : id ∉ path) :
    arena.unopened (id :: path) < arena.unopened path := by
  apply Finset.card_lt_card
  rw [Finset.ssubset_iff_of_subset]
  · exact ⟨id, Finset.mem_filter.mpr ⟨mem_currentIds found, closed⟩, by simp⟩
  · intro other member
    rcases Finset.mem_filter.mp member with ⟨present, outside⟩
    exact Finset.mem_filter.mpr ⟨present, fun inside => outside (List.mem_cons_of_mem _ inside)⟩

theorem unopened_le_size (arena : Arena) (path : List NodeId) :
    arena.unopened path ≤ arena.slots.size := by
  calc arena.unopened path ≤ arena.currentIds.card := Finset.card_filter_le _ _
    _ ≤ (Finset.range arena.slots.size).card := Finset.card_image_le
    _ = arena.slots.size := Finset.card_range _

def unfold (arena : Arena) (path : List NodeId) (id : NodeId) : Option Tree :=
  match _found : arena.node? id with
  | none => none
  | some node =>
    some (.node node.name node.nodeType (node.namedAttrs arena.names)
      (if _open : id ∈ path then []
        else node.childArray.toList.filterMap fun child => arena.unfold (id :: path) child))
termination_by arena.unopened path
decreasing_by exact unopened_cons_lt _found _open

theorem unfold_live {arena : Arena} {id : NodeId} {node : Node}
    (found : arena.node? id = some node) (path : List NodeId) :
    arena.unfold path id = some (.node node.name node.nodeType (node.namedAttrs arena.names)
      (if id ∈ path then []
        else node.childArray.toList.filterMap (arena.unfold (id :: path)))) := by
  rw [unfold]
  split
  · rename_i stale
    rw [found] at stale
    cases stale
  · rename_i other foundAgain
    rw [found] at foundAgain
    cases foundAgain
    rfl

theorem unfold_stale {arena : Arena} {id : NodeId} (stale : arena.node? id = none)
    (path : List NodeId) : arena.unfold path id = none := by
  rw [unfold]
  split
  · rfl
  · rename_i found
    rw [stale] at found
    cases found

def unfoldChildren (arena : Arena) (id : NodeId) : List Tree :=
  (arena.children id).toList.filterMap (arena.unfold [id])

end Arena

/-! ## Documents of trees -/

namespace Document

def writtenKey (key : String) : String :=
  if key = "VALUE" then "" else key

def headRecord (name : String) (kind : Kind) (attrs : List (String × Value)) : Record where
  name := name
  typeName := if kind = .base ∧ attrs = [] ∧ name ≠ "" then "" else kind.name
  attrs := attrs.map fun (key, value) => (writtenKey key, value)
  unfinished := false

structure KeysAmong (texts : Finset String) (attrs : List (String × Value)) : Prop where
  distinct : (attrs.map (·.1)).Nodup
  known : ∀ attr ∈ attrs, attr.1 ∈ texts
  folded : ∀ attr ∈ attrs, NameTable.attributes.fold attr.1 = attr.1

inductive ForestText (texts : Finset String) : List Tree → List Char → Prop where
  | nil {gap : List Char} (blank : ∀ character ∈ gap, isGapOrLineEnd character = true) :
      ForestText texts [] gap
  | leaf {name : String} {kind : Kind} {attrs : List (String × Value)} {trees : List Tree}
      {gap head tail : List Char} (blank : ∀ character ∈ gap, isGapOrLineEnd character = true)
      (keys : KeysAmong texts attrs) (record : RecordText (headRecord name kind attrs) head)
      (rest : ForestText texts trees tail) :
      ForestText texts (.node name (.ofKind kind) attrs [] :: trees)
        (gap ++ (head ++ '\n' :: tail))
  | block {name : String} {kind : Kind} {attrs : List (String × Value)}
      {children trees : List Tree} {gap head front inside tail : List Char}
      (blank : ∀ character ∈ gap, isGapOrLineEnd character = true)
      (keys : KeysAmong texts attrs) (record : RecordText (headRecord name kind attrs) head)
      (blankFront : ∀ character ∈ front, isGapOrLineEnd character = true)
      (block : ForestText texts children inside) (rest : ForestText texts trees tail) :
      ForestText texts (.node name (.ofKind kind) attrs children :: trees)
        (gap ++ (head ++ '\n' :: (front ++ '{' :: (inside ++ '}' :: tail))))

theorem ForestText.indent {texts : Finset String} {trees : List Tree} {text : List Char}
    (forest : ForestText texts trees text) {gap : List Char}
    (blank : ∀ character ∈ gap, isGapOrLineEnd character = true) :
    ForestText texts trees (gap ++ text) := by
  cases forest with
  | nil more => exact .nil (List.forall_mem_append.mpr ⟨blank, more⟩)
  | leaf more keys record rest =>
    rw [← List.append_assoc]
    exact .leaf (List.forall_mem_append.mpr ⟨blank, more⟩) keys record rest
  | block more keys record front block rest =>
    rw [← List.append_assoc]
    exact .block (List.forall_mem_append.mpr ⟨blank, more⟩) keys record front block rest

end Document
end RecordGraph
