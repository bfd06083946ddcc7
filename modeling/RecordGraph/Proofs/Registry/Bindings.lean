import Mathlib.Data.Finset.Card
import RecordGraph.Proofs.Registry.Places
import RecordGraph.Proofs.Text.Comparison

/-!
# Registries as maps of names

Whatever calls make a registry, a name leads to the last binding made under a name that is the same
up to case. The registry counts the names that differ in more than case, and lists the last binding
of each of them once, in the order of the bytes of the names in small letters. The same holds of a
row of bindings with places, in which no place is outside of the row or of another name.
-/

namespace RecordGraph.Registry

/-! ## Bindings of names -/

/-- The binding is the last one made under a name that is the same up to case. -/
def IsLatest (made : List RegistryEntry) (name : String) (entry : RegistryEntry) : Prop :=
  ∃ before after, made = before ++ entry :: after ∧ Text.SameName entry.name name ∧
    ∀ later ∈ after, ¬ Text.SameName later.name name

theorem key_eq_iff {entry : RegistryEntry} {name : String} :
    entry.key = Text.asciiLowerCase name ↔ Text.SameName entry.name name :=
  Text.sameName_iff.symm

theorem entry?_eq_find? (calls : List Registration) (name : String) :
    Registry.entry? (registerAll calls) name =
      (made calls).reverse.find? fun entry => entry.key = Text.asciiLowerCase name := by
  rw [ entry?, (reflects_registerAll calls).last]

theorem entry?_eq_some_iff {calls : List Registration} {name : String} {entry : RegistryEntry} :
    Registry.entry? (registerAll calls) name = some entry ↔ IsLatest (made calls) name entry := by
  rw [entry?_eq_find?, List.find?_eq_some_iff_append]
  simp only [decide_eq_true_eq, key_eq_iff, Bool.not_eq_true', decide_eq_false_iff_not]
  constructor
  · rintro ⟨same, after, before, split, others⟩
    refine ⟨before.reverse, after.reverse, ?_, same, fun later member => ?_⟩
    · rw [← List.reverse_reverse (made calls), split, List.reverse_append, List.reverse_cons,
        List.append_assoc, List.singleton_append]
    · exact others later (List.mem_reverse.mp member)
  · rintro ⟨before, after, split, same, others⟩
    refine ⟨same, after.reverse, before.reverse, ?_, fun later member => ?_⟩
    · rw [split, List.reverse_append, List.reverse_cons, List.append_assoc, List.singleton_append]
    · exact others later (List.mem_reverse.mp member)

theorem entry?_eq_none_iff {calls : List Registration} {name : String} :
    Registry.entry? (registerAll calls) name = none ↔
      ∀ entry ∈ made calls, ¬ Text.SameName entry.name name := by
  simp [entry?_eq_find?, key_eq_iff]

/-! ## Names -/

theorem mem_bindings_iff {calls : List Registration} {key : String} :
    key ∈ (registerAll calls).bindings ↔ ∃ entry ∈ made calls, entry.key = key := by
  rw [Std.ExtTreeMap.mem_iff_isSome_getElem?, (reflects_registerAll calls).last, List.find?_isSome]
  simp

/-- The registry has as many bindings as names were bound that differ in more than case. -/
theorem size_registerAll (calls : List Registration) :
    (registerAll calls).size =
      ((made calls).map fun entry => Text.asciiLowerCase entry.name).toFinset.card := by
  have same : ((made calls).map fun entry => Text.asciiLowerCase entry.name).toFinset =
      (registerAll calls).bindings.keys.toFinset := by
    ext key
    rw [List.mem_toFinset, List.mem_toFinset, Std.ExtTreeMap.mem_keys, mem_bindings_iff,
      List.mem_map]
    rfl
  rw [same, List.toFinset_card_of_nodup Std.ExtTreeMap.nodup_keys, Std.ExtTreeMap.length_keys]
  rfl

/-! ## The list of bindings -/

theorem map_key_sorted (calls : List Registration) :
    (registerAll calls).sorted.map (·.key) = (registerAll calls).bindings.keys := by
  rw [sorted, IndexedRegistry.values_eq, List.map_map, ← Std.ExtTreeMap.map_fst_toList_eq_keys]
  apply List.map_congr_left
  intro pair member
  exact key_of_found (Std.ExtTreeMap.mem_toList_iff_getElem?_eq_some.mp member)

theorem mem_sorted_iff {calls : List Registration} {entry : RegistryEntry} :
    entry ∈ (registerAll calls).sorted ↔
      ∃ name, Registry.entry? (registerAll calls) name = some entry := by
  rw [sorted, IndexedRegistry.values_eq, List.mem_map]
  constructor
  · rintro ⟨⟨key, held⟩, member, rfl⟩
    have found := Std.ExtTreeMap.mem_toList_iff_getElem?_eq_some.mp member
    exact ⟨_, entry?_name_of_found found⟩
  · rintro ⟨name, found⟩
    exact ⟨(_, entry), Std.ExtTreeMap.mem_toList_iff_getElem?_eq_some.mpr found, rfl⟩

theorem sorted_rises (calls : List Registration) :
    (registerAll calls).sorted.Pairwise fun first second =>
      Text.bytes (Text.asciiLowerCase first.name) <
        Text.bytes (Text.asciiLowerCase second.name) := by
  have rises : ((registerAll calls).sorted.map (·.key)).Pairwise (compare · · = .lt) := by
    rw [map_key_sorted]
    exact Std.ExtTreeMap.ordered_keys
  rw [List.pairwise_map] at rises
  apply rises.imp
  intro first second less
  exact Text.bytes_lt_iff.mpr (compareOfLessAndEq_eq_lt.mp less)

theorem nodup_sorted (calls : List Registration) : (registerAll calls).sorted.Nodup := by
  apply (sorted_rises calls).imp
  rintro first second less rfl
  exact List.lt_irrefl _ less

/-- After any calls a name leads to the binding made last under it, in any case of its letters. The
bindings are counted by these names and listed by them, each of them once. Nothing else is told by a
row of bindings, in which the place of a name is always that of a binding of the name. -/
theorem registerAll_maps_names (calls : List Registration) :
    (∀ name entry, Registry.entry? (registerAll calls) name = some entry ↔
        IsLatest (made calls) name entry) ∧
      (∀ name, Registry.entry? (registerAll calls) name = none ↔
        ∀ entry ∈ made calls, ¬ Text.SameName entry.name name) ∧
      (registerAll calls).size =
        ((made calls).map fun entry => Text.asciiLowerCase entry.name).toFinset.card ∧
      ((registerAll calls).sorted.Pairwise fun first second =>
        Text.bytes (Text.asciiLowerCase first.name) <
          Text.bytes (Text.asciiLowerCase second.name)) ∧
      (registerAll calls).sorted.Nodup ∧
      (∀ entry, entry ∈ (registerAll calls).sorted ↔
        ∃ name, Registry.entry? (registerAll calls) name = some entry) ∧
      ∃ row, IndexedRegistry.registerAll? calls = some row ∧ row.Answers (registerAll calls) ∧
        ∀ (key : String) (place : Nat), row.places[key]? = some place →
          ∃ entry, row.entries[place]? = some entry ∧
            Text.asciiLowerCase entry.name = key := by
  obtain ⟨row, built, represents⟩ := IndexedRegistry.exists_registerAll? calls
  exact ⟨fun _ _ => entry?_eq_some_iff, fun _ => entry?_eq_none_iff, size_registerAll calls,
    sorted_rises calls, nodup_sorted calls, fun _ => mem_sorted_iff,
    row, built, represents.answers, fun _ _ => represents.sound.points⟩

/-- A name that is bound again keeps its place, and the binding there is the new one. -/
theorem registerAll_maps_names_again :
    ∃ row, IndexedRegistry.registerAll? reboundSecond = some row ∧
      row.places["b"]? = some 1 ∧
      ∃ entry, row.entries[1]? = some entry ∧ Text.asciiLowerCase entry.name = "b" := by
  obtain ⟨row, built, -, points⟩ := (registerAll_maps_names reboundSecond).2.2.2.2.2.2
  have place : ((IndexedRegistry.registerAll? reboundSecond).bind (·.places["b"]?)) = some 1 := by
    decide +kernel
  rw [built, Option.bind_some] at place
  exact ⟨row, built, place, points "b" 1 place⟩

example : ((registerAll reboundSecond).sorted.map (·.name)) = ["a", "B"] := by decide +kernel

end RecordGraph.Registry
