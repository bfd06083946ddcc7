import RecordGraph.Registry

/-!
# Histories of registrations

What a registry knows follows from the calls that made it. The bindings are those made last for
their names. For a type the registry keeps the name that was bound to it first, whatever that name
has been bound to since. So the name of a type is right whenever there is one; a type is missed, or
built by a factory that no longer stands for it, only if its first name was bound to another type.
-/

namespace RecordGraph

def Factory.refusing : Factory where
  label := "refuse"
  build arena _ _ _ := (none, arena)

structure Registration where
  factory : Option Factory
  mapping : List (String × NodeType)

namespace Registration

def entries (call : Registration) : List RegistryEntry :=
  call.mapping.map fun (name, nodeType) => ⟨name, nodeType, call.factory⟩

end Registration

namespace Registry

/-! ## One binding -/

theorem getElem?_bindings_bind (registry : Registry) (entry : RegistryEntry) (key : String) :
    (registry.bind entry).bindings[key]? =
      if entry.key = key then some entry else registry.bindings[key]? := by
  simp [bind, Std.ExtTreeMap.getElem?_insert]

theorem getElem?_firstKeys_bind (registry : Registry) (entry : RegistryEntry)
    (nodeType : NodeType) :
    (registry.bind entry).firstKeys[nodeType.pack]? =
      registry.firstKeys[nodeType.pack]?.or
        (if entry.nodeType = nodeType then some entry.key else none) := by
  rw [bind, Std.ExtTreeMap.getElem?_insertIfNew]
  by_cases same : entry.nodeType = nodeType
  · subst same
    by_cases known : entry.nodeType.pack ∈ registry.firstKeys
    · simp [known]
    · simp [known]
  · simp [same, NodeType.pack_inj]

/-! ## Any number of calls -/

def registerAll (calls : List Registration) : Registry :=
  calls.foldl (fun registry call => registry.register call.factory call.mapping) empty

def made (calls : List Registration) : List RegistryEntry :=
  calls.flatMap Registration.entries

theorem registerAll_eq_foldl (calls : List Registration) :
    registerAll calls = (made calls).foldl bind empty := by
  unfold registerAll made
  generalize empty = registry
  induction calls generalizing registry with
  | nil => rfl
  | cons call calls induction =>
    rw [List.foldl_cons, List.flatMap_cons, List.foldl_append, induction, register,
      Registration.entries, List.foldl_map]

structure Reflects (made : List RegistryEntry) (registry : Registry) : Prop where
  last : ∀ key : String,
    registry.bindings[key]? = made.reverse.find? fun entry => entry.key = key
  first : ∀ nodeType : NodeType,
    registry.firstKeys[nodeType.pack]? =
      (made.find? fun entry => entry.nodeType = nodeType).map (·.key)

theorem reflects_empty : Reflects [] empty := by
  constructor <;> intro <;> simp [empty]

theorem Reflects.bind {made : List RegistryEntry} {registry : Registry}
    (reflects : Reflects made registry) (entry : RegistryEntry) :
    Reflects (made ++ [entry]) (registry.bind entry) where
  last key := by
    rw [getElem?_bindings_bind, reflects.last]
    by_cases same : entry.key = key <;> simp [same]
  first nodeType := by
    rw [getElem?_firstKeys_bind, reflects.first, List.find?_append, Option.map_or]
    by_cases same : entry.nodeType = nodeType <;> simp [same]

theorem reflects_foldl {before : List RegistryEntry} {registry : Registry}
    (reflects : Reflects before registry) (made : List RegistryEntry) :
    Reflects (before ++ made) (made.foldl Registry.bind registry) := by
  induction made generalizing before registry with
  | nil => simpa using reflects
  | cons entry made induction =>
    rw [List.foldl_cons, List.append_cons]
    exact induction (reflects.bind entry)

theorem reflects_registerAll (calls : List Registration) :
    Reflects (made calls) (registerAll calls) := by
  rw [registerAll_eq_foldl]
  exact reflects_foldl reflects_empty (made calls)

theorem key_of_found {calls : List Registration} {key : String} {entry : RegistryEntry}
    (found : (registerAll calls).bindings[key]? = some entry) : entry.key = key := by
  rw [(reflects_registerAll calls).last] at found
  simpa using List.find?_some found

theorem entry?_name_of_found {calls : List Registration} {key : String} {entry : RegistryEntry}
    (found : (registerAll calls).bindings[key]? = some entry) :
    Registry.entry? (registerAll calls) entry.name = some entry := by
  have same : Text.asciiLowerCase entry.name = key := key_of_found found
  rw [ entry?, same, found]

def firstMade? (calls : List Registration) (nodeType : NodeType) : Option RegistryEntry :=
  (made calls).find? fun entry => entry.nodeType = nodeType

theorem firstFor?_registerAll (calls : List Registration) (nodeType : NodeType) :
    (registerAll calls).firstFor? nodeType =
      (firstMade? calls nodeType).bind fun first =>
        Registry.entry? (registerAll calls) first.name := by
  rw [firstFor?, (reflects_registerAll calls).first, Option.bind_map]
  rfl

/-- The name that a type was bound to first, if it has one, still stands for the type. -/
def KeepsFirst (calls : List Registration) (nodeType : NodeType) : Prop :=
  ∀ first, firstMade? calls nodeType = some first →
    (registerAll calls).typeOf? first.name = some nodeType

theorem exists_made_of_typeOf? {calls : List Registration} {name : String} {nodeType : NodeType}
    (bound : (registerAll calls).typeOf? name = some nodeType) :
    ∃ entry ∈ made calls, entry.nodeType = nodeType ∧ entry.key = Text.asciiLowerCase name := by
  rcases Option.map_eq_some_iff.mp bound with ⟨entry, found, same⟩
  have key : entry.key = Text.asciiLowerCase name := key_of_found found
  rw [ entry?, (reflects_registerAll calls).last] at found
  exact ⟨entry, List.mem_reverse.mp (List.mem_of_find?_eq_some found), same, key⟩

theorem KeepsFirst.exists_first {calls : List Registration} {nodeType : NodeType}
    (keeps : KeepsFirst calls nodeType) {name : String}
    (bound : (registerAll calls).typeOf? name = some nodeType) :
    ∃ first, firstMade? calls nodeType = some first ∧
      (registerAll calls).typeOf? first.name = some nodeType := by
  rcases exists_made_of_typeOf? bound with ⟨entry, member, same, -⟩
  have known : (firstMade? calls nodeType).isSome := by
    rw [firstMade?, List.find?_isSome]
    exact ⟨entry, member, by simpa using same⟩
  rcases Option.isSome_iff_exists.mp known with ⟨first, found⟩
  exact ⟨first, found, keeps first found⟩

/-! ## The name of a type -/

theorem typeOf?_of_typeName? {calls : List Registration} {nodeType : NodeType} {name : String}
    (named : (registerAll calls).typeName? nodeType = some name) :
    (registerAll calls).typeOf? name = some nodeType := by
  rcases Option.map_eq_some_iff.mp named with ⟨entry, kept, rfl⟩
  rcases Option.filter_eq_some_iff.mp kept with ⟨first, same⟩
  rcases Option.bind_eq_some_iff.mp first with ⟨key, -, found⟩
  rw [typeOf?, entry?_name_of_found found, Option.map_some, eq_of_beq same]

/-- A type has a name if and only if the first name bound to it still stands for it. -/
theorem isSome_typeName?_iff (calls : List Registration) (nodeType : NodeType) :
    ((registerAll calls).typeName? nodeType).isSome ↔
      ∃ first, firstMade? calls nodeType = some first ∧
        (registerAll calls).typeOf? first.name = some nodeType := by
  rw [typeName?, Option.isSome_map, firstFor?_registerAll, Option.isSome_filter]
  cases firstMade? calls nodeType with
  | none => simp
  | some first => simp [typeOf?, Option.any_eq_true, Option.map_eq_some_iff]

/-- The name of a type stands for the type. A type has a name if and only if the first name bound
to it still stands for it; so where that name was not bound to another type, the type has a name if
and only if some name stands for it. -/
theorem typeName?_registerAll (calls : List Registration) (nodeType : NodeType) :
    (∀ name, (registerAll calls).typeName? nodeType = some name →
        (registerAll calls).typeOf? name = some nodeType) ∧
      (((registerAll calls).typeName? nodeType).isSome ↔
        ∃ first, firstMade? calls nodeType = some first ∧
          (registerAll calls).typeOf? first.name = some nodeType) ∧
      (KeepsFirst calls nodeType →
        (((registerAll calls).typeName? nodeType).isSome ↔
          ∃ name, (registerAll calls).typeOf? name = some nodeType)) := by
  refine ⟨fun name => typeOf?_of_typeName?, isSome_typeName?_iff calls nodeType, fun keeps => ?_⟩
  rw [isSome_typeName?_iff]
  constructor
  · rintro ⟨first, -, bound⟩
    exact ⟨first.name, bound⟩
  · rintro ⟨name, bound⟩
    exact keeps.exists_first bound

def reboundSecond : List Registration :=
  [⟨none, [("a", .ofKind .base), ("b", .ofKind .base)]⟩,
    ⟨some .refusing, [("B", .ofKind .list)]⟩]

theorem keepsFirst_reboundSecond : KeepsFirst reboundSecond (.ofKind .base) := by
  intro first made
  cases made
  decide +kernel

theorem typeName?_reboundSecond :
    KeepsFirst reboundSecond (.ofKind .base) ∧
      (((registerAll reboundSecond).typeName? (.ofKind .base)).isSome ↔
        ∃ name, (registerAll reboundSecond).typeOf? name = some (.ofKind .base)) :=
  ⟨keepsFirst_reboundSecond,
    (typeName?_registerAll reboundSecond (.ofKind .base)).2.2 keepsFirst_reboundSecond⟩

def reboundFirst : List Registration :=
  [⟨none, [("a", .ofKind .base), ("b", .ofKind .base)]⟩,
    ⟨some .refusing, [("a", .ofKind .list)]⟩]

/-- A type that a name still stands for has no name of its own any more. -/
theorem typeName?_reboundFirst :
    (registerAll reboundFirst).typeOf? "b" = some (.ofKind .base) ∧
      (registerAll reboundFirst).typeName? (.ofKind .base) = none := by
  decide +kernel

/-! ## The factory of a type -/

def earliestStanding? (calls : List Registration) (nodeType : NodeType) : Option RegistryEntry :=
  (made calls).find? fun entry =>
    entry.nodeType = nodeType ∧ (registerAll calls).typeOf? entry.name = some nodeType

theorem typeOf?_of_earliestStanding? {calls : List Registration} {nodeType : NodeType}
    {earliest : RegistryEntry} (found : earliestStanding? calls nodeType = some earliest) :
    (registerAll calls).typeOf? earliest.name = some nodeType := by
  have stands := List.find?_some found
  exact (of_decide_eq_true stands).2

/-- The current binding of the earliest of the names that stand for a type now. -/
def serving? (calls : List Registration) (nodeType : NodeType) : Option RegistryEntry :=
  (earliestStanding? calls nodeType).bind fun earliest =>
    Registry.entry? (registerAll calls) earliest.name

theorem serving?_eq_some {calls : List Registration} {nodeType : NodeType} {entry : RegistryEntry}
    (serves : serving? calls nodeType = some entry) :
    Registry.entry? (registerAll calls) entry.name = some entry ∧ entry.nodeType = nodeType := by
  rcases Option.bind_eq_some_iff.mp serves with ⟨earliest, found, bound⟩
  have stands := typeOf?_of_earliestStanding? found
  rw [typeOf?, bound, Option.map_some] at stands
  exact ⟨entry?_name_of_found bound, Option.some.inj stands⟩

theorem serving?_eq_none_iff {calls : List Registration} {nodeType : NodeType} :
    serving? calls nodeType = none ↔
      ∀ name, (registerAll calls).typeOf? name ≠ some nodeType := by
  constructor
  · intro absent name bound
    rcases exists_made_of_typeOf? bound with ⟨entry, member, same, key⟩
    have stands : (registerAll calls).typeOf? entry.name = some nodeType := by
      rw [← bound, typeOf?, typeOf?, entry?, entry?, ← key]
      rfl
    cases found : earliestStanding? calls nodeType with
    | none => exact List.find?_eq_none.mp found entry member (decide_eq_true ⟨same, stands⟩)
    | some earliest =>
      have earliestStands := typeOf?_of_earliestStanding? found
      rw [serving?, found, Option.bind_some] at absent
      rw [typeOf?, absent] at earliestStands
      cases earliestStands
  · intro unbound
    cases serves : serving? calls nodeType with
    | none => rfl
    | some entry =>
      rcases serving?_eq_some serves with ⟨bound, same⟩
      refine absurd ?_ (unbound entry.name)
      rw [typeOf?, bound, Option.map_some, same]

/-- Where the first name of a type still stands for it, its binding serves the type. -/
theorem KeepsFirst.firstFor?_eq_serving? {calls : List Registration} {nodeType : NodeType}
    (keeps : KeepsFirst calls nodeType) :
    (registerAll calls).firstFor? nodeType = serving? calls nodeType := by
  rw [firstFor?_registerAll]
  cases found : firstMade? calls nodeType with
  | none =>
    symm
    rw [Option.bind_none, serving?_eq_none_iff]
    intro name bound
    rcases keeps.exists_first bound with ⟨first, made, -⟩
    rw [found] at made
    cases made
  | some first =>
    have stands := keeps first found
    rcases List.find?_eq_some_iff_append.mp found with ⟨same, before, after, split, others⟩
    have earliest : earliestStanding? calls nodeType = some first := by
      rw [earliestStanding?, List.find?_eq_some_iff_append]
      refine ⟨decide_eq_true ⟨of_decide_eq_true same, stands⟩, before, after, split, ?_⟩
      intro entry member
      have different : entry.nodeType ≠ nodeType := by simpa using others entry member
      simp [different]
    rw [serving?, earliest]

/-- The type for which a request is built when no known type name chooses a binding: the explicit
type, else the one inferred from the name and the attributes. -/
inductive Chooses (registry : Registry) (request : BuildRequest) : NodeType → Prop
  | explicit {nodeType : NodeType} (given : request.nodeType = some nodeType) :
      Chooses registry request nodeType
  | inferred {kind : Kind} (untyped : request.nodeType = none)
      (unnamed : request.typeName.bind registry.entry? = none)
      (shape : inferKind request.name request.attrs = some kind) :
      Chooses registry request (.ofKind kind)

theorem Chooses.buildNode {registry : Registry} {request : BuildRequest} {nodeType : NodeType}
    (chooses : registry.Chooses request nodeType) (arena : Arena) :
    registry.buildNode arena request =
      registry.buildTyped arena nodeType request.name request.attrs := by
  unfold Registry.buildNode
  cases chooses with
  | explicit given => rw [given]
  | inferred untyped unnamed shape => rw [untyped, unnamed, shape]

/-- Append a built node to the children of the parent that was asked for. -/
def placeBelow (parent : Option NodeId) : Option NodeId × Arena → Option NodeId × Arena
  | (none, arena) => (none, arena)
  | (some id, arena) =>
    match parent with
    | some parent => (some id, (arena.pushChild parent id).2)
    | none => (some id, arena)

theorem build_eq_placeBelow (registry : Registry) (arena : Arena) (request : BuildRequest) :
    registry.build arena request =
      placeBelow request.parent (registry.buildNode arena request) := by
  unfold build placeBelow
  rfl

/-- A node of a type is built by the factory in the current binding of the first name of the type.
Where that name still stands for the type, this is the binding under the earliest name that does;
without a factory in it, or without such a name, the node is built directly. -/
theorem build_registerAll {calls : List Registration} {request : BuildRequest}
    {nodeType : NodeType} (chooses : (registerAll calls).Chooses request nodeType)
    (arena : Arena) :
    (registerAll calls).build arena request =
        placeBelow request.parent
          (buildWith (((firstMade? calls nodeType).bind
              fun first => Registry.entry? (registerAll calls) first.name).bind (·.factory))
            arena nodeType request.name request.attrs) ∧
      (KeepsFirst calls nodeType →
        (registerAll calls).build arena request =
          placeBelow request.parent
            (buildWith ((serving? calls nodeType).bind (·.factory))
              arena nodeType request.name request.attrs)) ∧
      (∀ entry, serving? calls nodeType = some entry →
        Registry.entry? (registerAll calls) entry.name = some entry ∧ entry.nodeType = nodeType) ∧
      (serving? calls nodeType = none ↔
        ∀ name, (registerAll calls).typeOf? name ≠ some nodeType) := by
  rw [build_eq_placeBelow, chooses.buildNode, buildTyped]
  refine ⟨?_, fun keeps => ?_, fun entry => serving?_eq_some, serving?_eq_none_iff⟩
  · rw [firstFor?_registerAll]
  · rw [keeps.firstFor?_eq_serving?]

theorem build_registerAll_reboundSecond :
    KeepsFirst reboundSecond (.ofKind .base) ∧
      (registerAll reboundSecond).build .empty (.named "x") =
        placeBelow none (buildWith ((serving? reboundSecond (.ofKind .base)).bind (·.factory))
          .empty (.ofKind .base) "x" none) := by
  have chooses : (registerAll reboundSecond).Chooses (.named "x") (.ofKind .base) :=
    .inferred rfl rfl rfl
  exact ⟨keepsFirst_reboundSecond, (build_registerAll chooses .empty).2.1 keepsFirst_reboundSecond⟩

/-- A factory is asked for a type that none of its bindings stands for, and builds nothing. -/
theorem build_reboundFirst :
    (∀ entry ∈ (registerAll reboundFirst).sorted,
        entry.nodeType = .ofKind .base → entry.factory.isNone) ∧
      (registerAll reboundFirst).typeOf? "b" = some (.ofKind .base) ∧
      ((registerAll reboundFirst).build .empty ⟨"x", some (.ofKind .base), none, none, none⟩).1 =
        none := by
  decide +kernel

end Registry
end RecordGraph
