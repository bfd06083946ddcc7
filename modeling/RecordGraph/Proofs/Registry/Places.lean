import RecordGraph.Proofs.Registrations
import RecordGraph.Registry.Indexed

/-!
# Places of bindings

A row of bindings with places stands for the registry in which each folded name leads to the binding
at its place. Each place in the row belongs to the one name of the binding there, so a binding that
is put in the place of another one changes nothing but the meaning of its own name. No place lies
outside of the row, hence registrations always come to an end with a row that stands for the
registry they make.
-/

namespace RecordGraph

namespace Registry

theorem eq_of_getElem? {left right : Registry}
    (bindings : ∀ key : String, left.bindings[key]? = right.bindings[key]?)
    (firstKeys : ∀ code : UInt32, left.firstKeys[code]? = right.firstKeys[code]?) :
    left = right := by
  cases left
  cases right
  congr
  · exact Std.ExtTreeMap.ext_getElem? bindings
  · exact Std.ExtTreeMap.ext_getElem? firstKeys

end Registry

namespace IndexedRegistry

def toRegistry (registry : IndexedRegistry) : Registry where
  bindings := registry.places.filterMap fun _ place => registry.entries[place]?
  firstKeys := registry.firstPlaces.filterMap fun _ place =>
    registry.entries[place]?.map (·.key)

structure Sound (registry : IndexedRegistry) : Prop where
  points {key : String} {place : Nat} : registry.places[key]? = some place →
    ∃ entry, registry.entries[place]? = some entry ∧ entry.key = key
  owned {place : Nat} {entry : RegistryEntry} : registry.entries[place]? = some entry →
    registry.places[entry.key]? = some place
  first {code : UInt32} {place : Nat} : registry.firstPlaces[code]? = some place →
    place < registry.entries.size
  full : registry.places.size = registry.entries.size

theorem sound_empty : Sound empty := by
  constructor <;> simp [empty]

theorem getElem?_bindings (registry : IndexedRegistry) (key : String) :
    registry.toRegistry.bindings[key]? =
      registry.places[key]?.bind fun place => registry.entries[place]? := by
  rw [toRegistry, Std.ExtTreeMap.getElem?_filterMap']

theorem getElem?_firstKeys (registry : IndexedRegistry) (code : UInt32) :
    registry.toRegistry.firstKeys[code]? =
      registry.firstPlaces[code]?.bind fun place => registry.entries[place]?.map (·.key) := by
  rw [toRegistry, Std.ExtTreeMap.getElem?_filterMap']

theorem toRegistry_empty : toRegistry empty = .empty := by
  apply Registry.eq_of_getElem?
  · intro key
    rw [getElem?_bindings]
    simp [empty, Registry.empty]
  · intro code
    rw [getElem?_firstKeys]
    simp [empty, Registry.empty]

/-! ## One binding -/

structure Puts (before : IndexedRegistry) (entry : RegistryEntry) (place : Nat)
    (after : IndexedRegistry) : Prop where
  here : after.entries[place]? = some entry
  elsewhere : ∀ other, other ≠ place → after.entries[other]? = before.entries[other]?
  places : ∀ key : String,
    after.places[key]? = if entry.key = key then some place else before.places[key]?
  unshared : ∀ key : String, before.places[key]? = some place → key = entry.key
  kept : ∀ other, before.places[entry.key]? = some other → other = place
  firstPlaces : after.firstPlaces = before.firstPlaces
  size_le : before.entries.size ≤ after.entries.size
  full : after.places.size = after.entries.size

section

variable {before after : IndexedRegistry} {entry : RegistryEntry} {place : Nat}

theorem Sound.puts_known (sound : before.Sound) (known : before.places[entry.key]? = some place) :
    Puts before entry place
      { before with entries := before.entries.setIfInBounds place entry } where
  here := by
    obtain ⟨old, found, -⟩ := sound.points known
    have inside := (Array.getElem?_eq_some_iff.mp found).1
    simp [inside]
  elsewhere other different := Array.getElem?_setIfInBounds_ne (Ne.symm different)
  places key := by
    by_cases same : entry.key = key
    · rw [if_pos same, ← same]
      exact known
    · rw [if_neg same]
  unshared key found := by
    obtain ⟨old, there, oldKey⟩ := sound.points found
    obtain ⟨other, same, otherKey⟩ := sound.points known
    rw [there] at same
    cases same
    rw [← oldKey, otherKey]
  kept other found := by
    rw [known] at found
    exact (Option.some.inj found).symm
  firstPlaces := rfl
  size_le := by simp
  full := by simpa using sound.full

theorem Sound.puts_new (sound : before.Sound) (unknown : before.places[entry.key]? = none) :
    Puts before entry before.entries.size
      { before with
        entries := before.entries.push entry
        places := before.places.insert entry.key before.entries.size } where
  here := by simp
  elsewhere other different := by simp [Array.getElem?_push, different]
  places key := by simp [Std.ExtTreeMap.getElem?_insert]
  unshared key found := by
    obtain ⟨old, there, -⟩ := sound.points found
    simp at there
  kept other found := by
    rw [unknown] at found
    cases found
  firstPlaces := rfl
  size_le := by simp
  full := by
    have missing : entry.key ∉ before.places := by simpa using unknown
    simp [Std.ExtTreeMap.size_insert, missing, sound.full]

theorem Sound.exists_put (sound : before.Sound) (entry : RegistryEntry) :
    ∃ place after, before.put? entry = some (place, after) ∧ Puts before entry place after := by
  unfold put?
  split
  · rename_i place known
    obtain ⟨old, found, -⟩ := sound.points known
    rw [if_pos (Array.getElem?_eq_some_iff.mp found).1]
    exact ⟨_, _, rfl, sound.puts_known known⟩
  · rename_i unknown
    exact ⟨_, _, rfl, sound.puts_new unknown⟩

theorem Puts.sound (puts : Puts before entry place after) (sound : before.Sound) : after.Sound where
  points {key other} found := by
    rw [puts.places] at found
    split at found
    · rename_i same
      cases found
      exact ⟨entry, puts.here, same⟩
    · rename_i different
      have elsewhere : other ≠ place := by
        rintro rfl
        exact different (puts.unshared key found).symm
      rw [puts.elsewhere other elsewhere]
      exact sound.points found
  owned {other held} found := by
    rw [puts.places]
    by_cases here : other = place
    · subst here
      rw [puts.here] at found
      cases found
      exact if_pos rfl
    · rw [puts.elsewhere other here] at found
      have known := sound.owned found
      rw [if_neg]
      · exact known
      · intro same
        rw [← same] at known
        exact here (puts.kept other known)
  first found := by
    rw [puts.firstPlaces] at found
    exact Nat.lt_of_lt_of_le (sound.first found) puts.size_le
  full := puts.full

theorem Puts.map_key (puts : Puts before entry place after) (sound : before.Sound) {other : Nat}
    (inside : other < before.entries.size) :
    after.entries[other]?.map (·.key) = before.entries[other]?.map (·.key) := by
  by_cases here : other = place
  · subst here
    have found := Array.getElem?_eq_getElem inside
    rw [puts.here, found, Option.map_some, Option.map_some]
    exact congrArg some (puts.unshared _ (sound.owned found)).symm
  · rw [puts.elsewhere other here]

end

structure Represents (row : IndexedRegistry) (registry : Registry) : Prop where
  sound : row.Sound
  toRegistry_eq : row.toRegistry = registry

theorem represents_empty : Represents empty .empty := ⟨sound_empty, toRegistry_empty⟩

theorem mem_firstKeys_iff {row : IndexedRegistry} (sound : row.Sound) (code : UInt32) :
    code ∈ row.toRegistry.firstKeys ↔ code ∈ row.firstPlaces := by
  rw [Std.ExtTreeMap.mem_iff_isSome_getElem?, Std.ExtTreeMap.mem_iff_isSome_getElem?,
    getElem?_firstKeys]
  cases found : row.firstPlaces[code]? with
  | none => rfl
  | some place => simp [sound.first found]

section

variable {before after : IndexedRegistry} {entry : RegistryEntry} {place : Nat}

theorem Puts.sound_noteFirst (puts : Puts before entry place after) (sound : before.Sound) :
    (after.noteFirst entry place).Sound where
  points := (puts.sound sound).points
  owned := (puts.sound sound).owned
  full := puts.full
  first {code other} found := by
    rw [noteFirst, Std.ExtTreeMap.getElem?_insertIfNew] at found
    split at found
    · cases found
      exact (Array.getElem?_eq_some_iff.mp puts.here).1
    · exact (puts.sound sound).first found

theorem Puts.bindings_noteFirst (puts : Puts before entry place after) (key : String) :
    (after.noteFirst entry place).toRegistry.bindings[key]? =
      (before.toRegistry.bind entry).bindings[key]? := by
  rw [Registry.getElem?_bindings_bind, getElem?_bindings, getElem?_bindings]
  change after.places[key]?.bind (fun place => after.entries[place]?) = _
  rw [puts.places]
  by_cases same : entry.key = key
  · rw [if_pos same, if_pos same]
    exact puts.here
  · rw [if_neg same, if_neg same]
    cases found : before.places[key]? with
    | none => rfl
    | some other =>
      apply puts.elsewhere
      rintro rfl
      exact same (puts.unshared key found).symm

theorem Puts.firstKeys_noteFirst (puts : Puts before entry place after) (sound : before.Sound)
    (code : UInt32) :
    (after.noteFirst entry place).toRegistry.firstKeys[code]? =
      (before.toRegistry.bind entry).firstKeys[code]? := by
  rw [Registry.bind, Std.ExtTreeMap.getElem?_insertIfNew, getElem?_firstKeys, getElem?_firstKeys,
    noteFirst, Std.ExtTreeMap.getElem?_insertIfNew, puts.firstPlaces]
  simp only [mem_firstKeys_iff sound]
  split
  · rw [Option.bind_some, puts.here]
    rfl
  · cases found : before.firstPlaces[code]? with
    | none => rfl
    | some other => exact puts.map_key sound (sound.first found)

end

/-- Binding a name never stops, and the row stands for the registry with the name bound. -/
theorem Represents.bind {row : IndexedRegistry} {registry : Registry}
    (represents : row.Represents registry) (entry : RegistryEntry) :
    ∃ after, row.bind? entry = some after ∧ after.Represents (registry.bind entry) := by
  obtain ⟨sound, rfl⟩ := represents
  obtain ⟨place, after, put, puts⟩ := sound.exists_put entry
  have bound : row.bind? entry = some (after.noteFirst entry place) := by
    rw [bind?, put]
    rfl
  refine ⟨_, bound, puts.sound_noteFirst sound, ?_⟩
  exact Registry.eq_of_getElem? puts.bindings_noteFirst (puts.firstKeys_noteFirst sound)

/-! ## Any number of calls -/

theorem Represents.register {row : IndexedRegistry} {registry : Registry}
    (represents : row.Represents registry) (factory : Option Factory)
    (mapping : List (String × NodeType)) :
    ∃ after, row.register? factory mapping = some after ∧
      after.Represents (registry.register factory mapping) := by
  unfold register? Registry.register
  induction mapping generalizing row registry with
  | nil => exact ⟨row, rfl, represents⟩
  | cons binding mapping induction =>
    obtain ⟨name, nodeType⟩ := binding
    obtain ⟨after, bound, representsAfter⟩ := represents.bind ⟨name, nodeType, factory⟩
    rw [List.foldlM_cons]
    simp only [bound]
    exact induction representsAfter

def registerAll? (calls : List Registration) : Option IndexedRegistry :=
  calls.foldlM (fun row call => row.register? call.factory call.mapping) empty

theorem exists_registerAll? (calls : List Registration) :
    ∃ row, registerAll? calls = some row ∧ row.Represents (Registry.registerAll calls) := by
  unfold registerAll? Registry.registerAll
  have represents := represents_empty
  generalize empty = row at represents ⊢
  generalize Registry.empty = registry at represents ⊢
  induction calls generalizing row registry with
  | nil => exact ⟨row, rfl, represents⟩
  | cons call calls induction =>
    obtain ⟨after, bound, representsAfter⟩ := represents.register call.factory call.mapping
    rw [List.foldlM_cons, bound]
    exact induction _ _ representsAfter

/-! ## What a row answers -/

theorem values_eq {Content : Type} (map : Std.ExtTreeMap String Content) :
    map.values = map.toList.map (·.2) := by
  obtain ⟨⟨tree⟩⟩ := map
  induction tree using Quotient.ind with
  | _ tree =>
    change Std.DTreeMap.Internal.Impl.values tree.inner =
      (Std.DTreeMap.Internal.Impl.Const.toList tree.inner).map (·.2)
    rw [Std.DTreeMap.Internal.Impl.values_eq_map_snd,
      Std.DTreeMap.Internal.Impl.Const.toList_eq_toListModel_map, List.map_map]
    rfl

structure Answers (row : IndexedRegistry) (registry : Registry) : Prop where
  size_eq : row.size = registry.size
  entry?_eq : ∀ name, row.entry? name = registry.entry? name
  firstFor?_eq : ∀ nodeType, row.firstFor? nodeType = registry.firstFor? nodeType
  sorted_eq : row.sorted = registry.sorted

section

variable {row : IndexedRegistry} (sound : row.Sound)

include sound

theorem size_toRegistry : row.toRegistry.size = row.size := by
  rw [size, ← sound.full, Registry.size, toRegistry, Std.ExtTreeMap.size_filterMap_eq_size_iff]
  intro key known
  obtain ⟨entry, found, -⟩ := sound.points (Std.ExtTreeMap.getElem?_eq_some_getElem known)
  exact Option.isSome_of_eq_some found

theorem firstFor?_toRegistry (nodeType : NodeType) :
    row.toRegistry.firstFor? nodeType = row.firstFor? nodeType := by
  rw [Registry.firstFor?, firstFor?, getElem?_firstKeys]
  cases found : row.firstPlaces[nodeType.pack]? with
  | none => rfl
  | some place =>
    have held := Array.getElem?_eq_getElem (sound.first found)
    simp only [Option.bind_some, held, Option.map_some]
    rw [getElem?_bindings, sound.owned held, Option.bind_some, held]

end

theorem sorted_toRegistry (row : IndexedRegistry) : row.toRegistry.sorted = row.sorted := by
  rw [Registry.sorted, sorted, values_eq, values_eq, toRegistry, Std.ExtTreeMap.toList_filterMap,
    List.filterMap_map, List.map_filterMap]
  apply congrArg (List.filterMap · row.places.toList)
  funext pair
  rw [Function.comp, Option.map_map]
  exact Option.map_id'

theorem Represents.answers {row : IndexedRegistry} {registry : Registry}
    (represents : row.Represents registry) : row.Answers registry := by
  obtain ⟨sound, rfl⟩ := represents
  exact ⟨(size_toRegistry sound).symm, fun name => (getElem?_bindings row _).symm,
    fun nodeType => (firstFor?_toRegistry sound nodeType).symm, (sorted_toRegistry row).symm⟩

end IndexedRegistry
end RecordGraph
