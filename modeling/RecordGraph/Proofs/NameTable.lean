import Mathlib
import RecordGraph.AttrList

/-!
# Tables of attribute names

In every table that comes out of the table of attributes the two maps are inverse to each other, the
names are folded, and the pinned names are there. Interning keeps every name that is there.

A number is left for each new name as long as there are not too many of them: the names of one table
always fit into a fresh one.
-/

namespace RecordGraph

namespace Text

theorem asciiUpperCase_asciiUpperCase (text : String) :
    asciiUpperCase (asciiUpperCase text) = asciiUpperCase text := by
  simp [asciiUpperCase, Function.comp_def]

theorem asciiUpperCase_eq_empty {text : String} : asciiUpperCase text = "" ↔ text = "" := by
  simp [asciiUpperCase]

end Text

namespace NameTable

structure Sound (names : NameTable) : Prop where
  foldsCase : names.foldsCase = true
  numbered : ∀ text id, names.numbers[text]? = some id → names.lookup id = some text
  named : ∀ id text, names.lookup id = some text →
    names.numbers[text]? = some id ∧ names.fold text = text
  pinned : ∀ pair ∈ pinned, ∃ references,
    names.entries[pair.1]? = some ⟨pair.2, references, true⟩
  range : ∀ id text, names.lookup id = some text →
    id.number < names.next ∧ (263 ≤ id.number ∨ (id, text) ∈ NameTable.pinned)
  first_le : 263 ≤ names.next
  next_le : names.next ≤ lastNumber

theorem lookup_eq_some_iff {names : NameTable} {id : AttrId} {text : String} :
    names.lookup id = some text ↔ ∃ entry, names.entries[id]? = some entry ∧ entry.text = text := by
  simp [lookup, entry?]

theorem fold_fold (names : NameTable) (name : String) :
    names.fold (names.fold name) = names.fold name := by
  cases folds : names.foldsCase with
  | false => simp [fold, folds]
  | true =>
    simp only [fold, folds, ↓reduceIte]
    by_cases empty : name = ""
    · simp only [empty, ↓reduceIte]
      decide
    · simp only [empty, ↓reduceIte, Text.asciiUpperCase_eq_empty,
        Text.asciiUpperCase_asciiUpperCase]

/-- The two maps are inverse to each other, and the names are folded and have numbers that were
given out. -/
structure Inverse (names : NameTable) : Prop where
  numbered : ∀ text id, names.numbers[text]? = some id → names.lookup id = some text
  named : ∀ id text, names.lookup id = some text →
    names.numbers[text]? = some id ∧ names.fold text = text
  below : ∀ id text, names.lookup id = some text → id.number < names.next

theorem Sound.inverse {names : NameTable} (sound : names.Sound) : names.Inverse :=
  ⟨sound.numbered, sound.named, fun id text found => (sound.range id text found).1⟩

namespace Inverse

variable {names : NameTable} (inverse : names.Inverse)

include inverse

theorem query_eq_some_iff {name : String} {id : AttrId} :
    names.query name = some id ↔ names.lookup id = some (names.fold name) :=
  ⟨inverse.numbered _ id, fun found => (inverse.named id _ found).1⟩

theorem lookup_inj {id other : AttrId} {text : String} (found : names.lookup id = some text)
    (foundOther : names.lookup other = some text) : id = other :=
  Option.some.inj
    ((inverse.named id text found).1.symm.trans (inverse.named other text foundOther).1)

theorem lookup_next : names.lookup ⟨names.next⟩ = none := by
  cases found : names.lookup ⟨names.next⟩ with
  | none => rfl
  | some text => exact absurd (inverse.below _ text found) (Nat.lt_irrefl _)

end Inverse

theorem sound_attributes : attributes.Sound where
  foldsCase := by decide +kernel
  numbered text id found := by
    have all : ∀ pair ∈ attributes.numbers.toList, attributes.lookup pair.2 = some pair.1 := by
      decide +kernel
    exact all (text, id) (Std.ExtTreeMap.mem_toList_iff_getElem?_eq_some.mpr found)
  named id text found := by
    have all : ∀ pair ∈ attributes.entries.toList,
        attributes.numbers[pair.2.text]? = some pair.1 ∧
          attributes.fold pair.2.text = pair.2.text := by
      decide +kernel
    rcases lookup_eq_some_iff.mp found with ⟨entry, present, rfl⟩
    exact all (id, entry) (Std.ExtTreeMap.mem_toList_iff_getElem?_eq_some.mpr present)
  pinned := by
    have all : ∀ pair ∈ NameTable.pinned,
        attributes.entries[pair.1]? = some ⟨pair.2, 1, true⟩ := by decide +kernel
    exact fun pair member => ⟨1, all pair member⟩
  range id text found := by
    have all : ∀ pair ∈ attributes.entries.toList,
        pair.1.number < attributes.next ∧ (pair.1, pair.2.text) ∈ NameTable.pinned := by
      decide +kernel
    rcases lookup_eq_some_iff.mp found with ⟨entry, present, rfl⟩
    have facts := all (id, entry) (Std.ExtTreeMap.mem_toList_iff_getElem?_eq_some.mpr present)
    exact ⟨facts.1, .inr facts.2⟩
  first_le := by decide +kernel
  next_le := by decide +kernel

section

variable {names : NameTable} (sound : names.Sound)

include sound

theorem Sound.fold_eq (name : String) : names.fold name = attributes.fold name := by
  have folds : attributes.foldsCase = true := by decide +kernel
  simp only [fold, sound.foldsCase, folds]

theorem Sound.query_eq_some_iff {name : String} {id : AttrId} :
    names.query name = some id ↔ names.lookup id = some (names.fold name) :=
  sound.inverse.query_eq_some_iff

theorem Sound.lookup_inj {id other : AttrId} {text : String} (found : names.lookup id = some text)
    (foundOther : names.lookup other = some text) : id = other :=
  sound.inverse.lookup_inj found foundOther

theorem Sound.lookup_value : names.lookup .value = some "VALUE" := by
  rcases sound.pinned (.value, "VALUE") (by simp [NameTable.pinned]) with ⟨references, found⟩
  exact lookup_eq_some_iff.mpr ⟨_, found, rfl⟩

end

/-! ## Changes of a table -/

structure Keeps (before after : NameTable) : Prop where
  foldsCase : after.foldsCase = before.foldsCase
  lookup : ∀ id text, before.lookup id = some text → after.lookup id = some text

theorem Keeps.refl (names : NameTable) : names.Keeps names := ⟨rfl, fun _ _ found => found⟩

theorem Keeps.trans {before middle after : NameTable} (first : before.Keeps middle)
    (second : middle.Keeps after) : before.Keeps after where
  foldsCase := second.foldsCase.trans first.foldsCase
  lookup id text found := second.lookup id text (first.lookup id text found)

theorem Keeps.fold {before after : NameTable} (keeps : before.Keeps after) (name : String) :
    after.fold name = before.fold name := by
  simp only [NameTable.fold, keeps.foldsCase]

def appended (names : NameTable) (text : String) : NameTable :=
  { names.insert ⟨names.next⟩ ⟨text, 1, false⟩ with next := names.next + 1 }

theorem insertNew_eq {names : NameTable} (room : names.next < lastNumber) (text : String) :
    names.insertNew text = (.ok ⟨names.next⟩, names.appended text) := by
  simp only [insertNew, room, ↓reduceIte, appended]

theorem add_of_known {names : NameTable} {name : String} {id : AttrId}
    (known : names.query name = some id) : names.add name = .ok (id, names.retain id) := by
  simp only [add, tryAdd, known]

theorem add_of_new {names : NameTable} {name : String} (missing : names.query name = none)
    (room : names.next < lastNumber) :
    names.add name = .ok (⟨names.next⟩, names.appended (names.fold name)) := by
  simp only [add, tryAdd, missing, insertNew_eq room]

theorem add_of_full {names : NameTable} {name : String} (missing : names.query name = none)
    (full : ¬ names.next < lastNumber) : names.add name = .error ⟨names.size⟩ := by
  simp only [add, tryAdd, missing, insertNew, if_neg full]

theorem intern_of_missing {names : NameTable} {name : String} (missing : names.query name = none) :
    names.intern name = names.add name := by
  rw [intern, missing]

theorem exists_intern {names : NameTable} (room : names.next < lastNumber) (name : String) :
    ∃ id later, names.intern name = .ok (id, later) := by
  cases found : names.query name with
  | some id => exact ⟨id, names, by rw [intern, found]⟩
  | none => exact ⟨_, _, (intern_of_missing found).trans (add_of_new found room)⟩

/-- A name that was interned was there, or it has become a new one while a number was left. -/
theorem intern_cases {names later : NameTable} {name : String} {attr : AttrId}
    (given : names.intern name = .ok (attr, later)) :
    (names.query name = some attr ∧ later = names) ∨
      (names.query name = none ∧ names.next < lastNumber ∧ attr = ⟨names.next⟩ ∧
        later = names.appended (names.fold name)) := by
  cases known : names.query name with
  | some id =>
    rw [intern, known] at given
    cases given
    exact .inl ⟨rfl, rfl⟩
  | none =>
    rw [intern_of_missing known] at given
    by_cases room : names.next < lastNumber
    · rw [add_of_new known room] at given
      cases given
      exact .inr ⟨rfl, room, rfl, rfl⟩
    · rw [add_of_full known room] at given
      cases given

theorem entries_appended (names : NameTable) (text : String) (id : AttrId) :
    (names.appended text).entries[id]? =
      if id = ⟨names.next⟩ then some ⟨text, 1, false⟩ else names.entries[id]? := by
  simp only [appended, insert, Std.ExtTreeMap.getElem?_insert]
  by_cases same : id = ⟨names.next⟩
  · simp [same]
  · simp [same, Ne.symm same]

theorem lookup_appended (names : NameTable) (text : String) (id : AttrId) :
    (names.appended text).lookup id =
      if id = ⟨names.next⟩ then some text else names.lookup id := by
  rw [lookup, entry?, entries_appended]
  split
  · rfl
  · rfl

theorem entries_countReferences (names : NameTable) (id asked : AttrId) (change : Nat → Nat) :
    (names.countReferences id change).entries[asked]? =
      if asked = id then
        names.entries[id]?.map fun entry => { entry with references := change entry.references }
      else names.entries[asked]? := by
  simp only [countReferences, Std.ExtTreeMap.getElem?_modify]
  by_cases same : asked = id
  · simp [same]
  · simp [same, Ne.symm same]

theorem lookup_countReferences (names : NameTable) (id asked : AttrId) (change : Nat → Nat) :
    (names.countReferences id change).lookup asked = names.lookup asked := by
  rw [lookup, entry?, entries_countReferences, lookup, entry?]
  split
  · rename_i same
    simp [same, Option.map_map, Function.comp_def]
  · rfl

def without (names : NameTable) (id : AttrId) (text : String) : NameTable :=
  { names with
    entries := names.entries.erase id
    numbers := names.numbers.erase text }

theorem entries_without (names : NameTable) (id asked : AttrId) (text : String) :
    (names.without id text).entries[asked]? =
      if asked = id then none else names.entries[asked]? := by
  simp only [without, Std.ExtTreeMap.getElem?_erase]
  by_cases same : asked = id
  · simp [same]
  · simp [same, Ne.symm same]

theorem lookup_without (names : NameTable) (id asked : AttrId) (text : String) :
    (names.without id text).lookup asked = if asked = id then none else names.lookup asked := by
  rw [lookup, entry?, entries_without]
  split
  · rfl
  · rfl

theorem pinned_countReferences {names : NameTable} {asked : AttrId} {text : String}
    (held : ∃ references, names.entries[asked]? = some ⟨text, references, true⟩) (id : AttrId)
    (change : Nat → Nat) :
    ∃ references,
      (names.countReferences id change).entries[asked]? = some ⟨text, references, true⟩ := by
  rcases held with ⟨references, found⟩
  rw [entries_countReferences]
  split
  · rename_i same
    exact ⟨change references, by simp [← same, found]⟩
  · exact ⟨references, found⟩

theorem pinned_without {names : NameTable} {id asked : AttrId} {entry : NameEntry} {text : String}
    (held : ∃ references, names.entries[asked]? = some ⟨text, references, true⟩)
    (found : names.entries[id]? = some entry) (free : entry.pinned = false) :
    ∃ references,
      (names.without id entry.text).entries[asked]? = some ⟨text, references, true⟩ := by
  rcases held with ⟨references, kept⟩
  refine ⟨references, ?_⟩
  rw [entries_without, if_neg, kept]
  intro same
  rw [← same, kept] at found
  cases found
  cases free

theorem numbers_without (names : NameTable) (id : AttrId) (text asked : String) :
    (names.without id text).numbers[asked]? =
      if asked = text then none else names.numbers[asked]? := by
  simp only [without, Std.ExtTreeMap.getElem?_erase]
  by_cases same : asked = text
  · simp [same]
  · simp [same, Ne.symm same]

/-- A release passes over an id without a name and a pinned name; any other name vanishes with its
last reference. -/
theorem release_cases (names : NameTable) (id : AttrId) :
    (∀ entry, names.entries[id]? = some entry → entry.pinned = true) ∧ names.release id = names ∨
      ∃ entry, names.entries[id]? = some entry ∧ entry.pinned = false ∧
        (entry.references ≤ 1 ∧ names.release id = names.without id entry.text ∨
          1 < entry.references ∧ names.release id = names.countReferences id (· - 1)) := by
  cases found : names.entries[id]? with
  | none =>
    left
    have unknown : names.entry? id = none := found
    exact ⟨nofun, by simp only [release, unknown]⟩
  | some entry =>
    have known : names.entry? id = some entry := found
    cases held : entry.pinned with
    | true =>
      left
      refine ⟨fun other same => ?_, by simp only [release, known, held, ↓reduceIte]⟩
      rwa [← Option.some.inj same]
    | false =>
      right
      refine ⟨entry, rfl, held, ?_⟩
      by_cases last : entry.references ≤ 1
      · left
        exact ⟨last, by simp [release, known, held, last, without]⟩
      · right
        exact ⟨by omega, by simp [release, known, held, last]⟩

theorem numbers_appended (names : NameTable) (text asked : String) :
    (names.appended text).numbers[asked]? =
      if asked = text then some ⟨names.next⟩ else names.numbers[asked]? := by
  simp only [appended, insert, Std.ExtTreeMap.getElem?_insert]
  by_cases same : asked = text
  · simp [same]
  · simp [same, Ne.symm same]

theorem query_of_intern {names later : NameTable} {name other : String} {id attr : AttrId}
    (given : names.intern name = .ok (attr, later)) (known : names.query other = some id) :
    later.query other = some id := by
  rcases intern_cases given with ⟨-, rfl⟩ | ⟨missing, -, -, rfl⟩
  · exact known
  · have different : names.fold other ≠ names.fold name := by
      intro same
      rw [query, same] at known
      rw [query, known] at missing
      cases missing
    change (names.appended (names.fold name)).numbers[names.fold other]? = some id
    rw [numbers_appended, if_neg different]
    exact known

theorem query_of_interned {names later : NameTable} {name : String} {attr : AttrId}
    (given : names.intern name = .ok (attr, later)) : later.query name = some attr := by
  rcases intern_cases given with ⟨found, rfl⟩ | ⟨-, -, rfl, rfl⟩
  · exact found
  · change (names.appended (names.fold name)).numbers[names.fold name]? = _
    rw [numbers_appended, if_pos rfl]

theorem intern_of_intern {names later : NameTable} {name : String} {attr : AttrId}
    (given : names.intern name = .ok (attr, later)) : later.intern name = .ok (attr, later) := by
  rw [intern, query_of_interned given]

namespace Inverse

variable {names : NameTable} (inverse : names.Inverse)

include inverse

theorem keeps_appended (text : String) : names.Keeps (names.appended text) where
  foldsCase := rfl
  lookup id other found := by
    rw [lookup_appended, if_neg, found]
    rintro rfl
    rw [inverse.lookup_next] at found
    cases found

theorem appended {name : String} (missing : names.query name = none) :
    (names.appended (names.fold name)).Inverse where
  numbered text id found := by
    rw [numbers_appended] at found
    split at found
    · rename_i same
      cases found
      rw [lookup_appended, if_pos rfl, same]
    · exact (inverse.keeps_appended _).lookup id text (inverse.numbered text id found)
  named id text found := by
    rw [lookup_appended] at found
    rw [numbers_appended]
    split at found
    · rename_i same
      cases found
      exact ⟨by rw [if_pos rfl, same], names.fold_fold name⟩
    · rcases inverse.named id text found with ⟨number, folded⟩
      refine ⟨?_, folded⟩
      rw [if_neg, number]
      rintro rfl
      rw [query, number] at missing
      cases missing
  below id text found := by
    rw [lookup_appended] at found
    split at found
    · rename_i same
      rw [same]
      exact Nat.lt_succ_self _
    · exact Nat.lt_succ_of_lt (inverse.below id text found)

theorem countReferences (id : AttrId) (change : Nat → Nat) :
    (names.countReferences id change).Inverse where
  numbered text asked found := by
    rw [lookup_countReferences]
    exact inverse.numbered text asked found
  named asked text found := by
    rw [lookup_countReferences] at found
    exact inverse.named asked text found
  below asked text found := by
    rw [lookup_countReferences] at found
    exact inverse.below asked text found

theorem without {id : AttrId} {text : String} (present : names.lookup id = some text) :
    (names.without id text).Inverse where
  numbered other asked found := by
    rw [numbers_without] at found
    split at found
    · cases found
    · rename_i different
      have stays := inverse.numbered other asked found
      rw [lookup_without, if_neg, stays]
      rintro rfl
      rw [present] at stays
      exact different (Option.some.inj stays).symm
  named asked other found := by
    rw [lookup_without] at found
    split at found
    · cases found
    · rename_i different
      rcases inverse.named asked other found with ⟨number, folded⟩
      refine ⟨?_, folded⟩
      rw [numbers_without, if_neg, number]
      rintro rfl
      exact different (inverse.lookup_inj found present)
  below asked other found := by
    rw [lookup_without] at found
    split at found
    · cases found
    · exact inverse.below asked other found

end Inverse

section

variable {names : NameTable} (sound : names.Sound)

include sound

theorem Sound.keeps_appended (text : String) : names.Keeps (names.appended text) :=
  sound.inverse.keeps_appended text

theorem Sound.appended {name : String} (missing : names.query name = none)
    (room : names.next < lastNumber) : (names.appended (names.fold name)).Sound where
  foldsCase := sound.foldsCase
  numbered := (sound.inverse.appended missing).numbered
  named := (sound.inverse.appended missing).named
  pinned pair member := by
    rcases sound.pinned pair member with ⟨references, found⟩
    refine ⟨references, ?_⟩
    rw [entries_appended, if_neg, found]
    intro same
    have absent := sound.inverse.lookup_next
    rw [← same, lookup, entry?, found] at absent
    cases absent
  range id text found := by
    refine ⟨(sound.inverse.appended missing).below id text found, ?_⟩
    rw [lookup_appended] at found
    split at found
    · rename_i same
      rw [same]
      exact .inl sound.first_le
    · exact (sound.range id text found).2
  first_le := Nat.le_succ_of_le sound.first_le
  next_le := room

theorem Sound.intern {name : String} {id : AttrId} {later : NameTable}
    (given : names.intern name = .ok (id, later)) : later.Sound ∧ names.Keeps later := by
  rcases intern_cases given with ⟨-, rfl⟩ | ⟨missing, room, -, rfl⟩
  · exact ⟨sound, .refl _⟩
  · exact ⟨sound.appended missing room, sound.keeps_appended _⟩

theorem Sound.countReferences (id : AttrId) (change : Nat → Nat) :
    (names.countReferences id change).Sound where
  foldsCase := sound.foldsCase
  numbered := (sound.inverse.countReferences id change).numbered
  named := (sound.inverse.countReferences id change).named
  pinned pair member := pinned_countReferences (sound.pinned pair member) id change
  range asked text found := by
    rw [lookup_countReferences] at found
    exact sound.range asked text found
  first_le := sound.first_le
  next_le := sound.next_le

private theorem Sound.without {id : AttrId} {entry : NameEntry}
    (found : names.entries[id]? = some entry) (free : entry.pinned = false) :
    (names.without id entry.text).Sound where
  foldsCase := sound.foldsCase
  numbered := (sound.inverse.without (lookup_eq_some_iff.mpr ⟨entry, found, rfl⟩)).numbered
  named := (sound.inverse.without (lookup_eq_some_iff.mpr ⟨entry, found, rfl⟩)).named
  pinned pair member := pinned_without (sound.pinned pair member) found free
  range asked text present := by
    rw [lookup_without] at present
    split at present
    · cases present
    · exact sound.range asked text present
  first_le := sound.first_le
  next_le := sound.next_le

end

/-! ## Room for new names -/

def missing (names : NameTable) (texts : Finset String) : Finset String :=
  texts.filter fun text => names.numbers[text]? = none

structure Fits (names : NameTable) (texts : Finset String) : Prop where
  sound : names.Sound
  room : names.next + (names.missing texts).card ≤ lastNumber

def texts (names : NameTable) : Finset String :=
  (names.entries.toList.map (·.2.text)).toFinset

theorem mem_texts {names : NameTable} {text : String} :
    text ∈ names.texts ↔ ∃ id, names.lookup id = some text := by
  simp only [texts, List.mem_toFinset, List.mem_map, lookup_eq_some_iff]
  constructor
  · rintro ⟨⟨id, entry⟩, member, same⟩
    exact ⟨id, entry, Std.ExtTreeMap.mem_toList_iff_getElem?_eq_some.mp member, same⟩
  · rintro ⟨id, entry, found, same⟩
    exact ⟨(id, entry), Std.ExtTreeMap.mem_toList_iff_getElem?_eq_some.mpr found, same⟩

theorem card_missing_appended {names : NameTable} {texts : Finset String} {text : String}
    (member : text ∈ texts) (absent : names.numbers[text]? = none) :
    ((names.appended text).missing texts).card < (names.missing texts).card := by
  apply Finset.card_lt_card
  rw [Finset.ssubset_iff_of_subset]
  · refine ⟨text, Finset.mem_filter.mpr ⟨member, absent⟩, fun again => ?_⟩
    have lacking := (Finset.mem_filter.mp again).2
    rw [numbers_appended, if_pos rfl] at lacking
    cases lacking
  · intro other lacking
    rcases Finset.mem_filter.mp lacking with ⟨known, lacking⟩
    rw [numbers_appended] at lacking
    split at lacking
    · cases lacking
    · exact Finset.mem_filter.mpr ⟨known, lacking⟩

theorem Fits.intern {names : NameTable} {texts : Finset String} (fits : names.Fits texts)
    {name : String} (member : names.fold name ∈ texts) :
    ∃ id later, names.intern name = .ok (id, later) ∧ later.Fits texts ∧ names.Keeps later ∧
      later.lookup id = some (names.fold name) := by
  cases found : names.query name with
  | some id =>
    exact ⟨id, names, by rw [NameTable.intern, found], fits, .refl names,
      fits.sound.query_eq_some_iff.mp found⟩
  | none =>
    have fewer := card_missing_appended member found
    have bound := fits.room
    have room : names.next < lastNumber := by omega
    refine ⟨⟨names.next⟩, names.appended (names.fold name), ?_, ?_,
      fits.sound.keeps_appended _, ?_⟩
    · exact (intern_of_missing found).trans (add_of_new found room)
    · refine ⟨fits.sound.appended found room, ?_⟩
      simp only [NameTable.appended] at fewer ⊢
      omega
    · rw [lookup_appended, if_pos rfl]

private theorem Sound.number_of_missing {names : NameTable} (sound : names.Sound) {text : String}
    (lacking : text ∈ attributes.missing names.texts) :
    ∃ id, names.numbers[text]? = some id ∧ 263 ≤ id.number ∧ id.number < names.next := by
  rcases Finset.mem_filter.mp lacking with ⟨known, absent⟩
  rcases mem_texts.mp known with ⟨id, found⟩
  rcases sound.range id text found with ⟨below, new | old⟩
  · exact ⟨id, (sound.named id text found).1, new, below⟩
  · rcases sound_attributes.pinned (id, text) old with ⟨references, present⟩
    have again := (sound_attributes.named id text (lookup_eq_some_iff.mpr ⟨_, present, rfl⟩)).1
    rw [absent] at again
    cases again

/-- The names of one table fit into a fresh one, which needs no more numbers for them than the
table has given out. -/
theorem Sound.fits_attributes {names : NameTable} (sound : names.Sound) :
    attributes.Fits names.texts := by
  refine ⟨sound_attributes, ?_⟩
  have first : attributes.next = 263 := by decide +kernel
  have count : (attributes.missing names.texts).card ≤ (Finset.Ico 263 names.next).card := by
    apply Finset.card_le_card_of_injOn fun text => ((names.numbers[text]?).map (·.number)).getD 0
    · intro text lacking
      rcases sound.number_of_missing lacking with ⟨id, number, least, below⟩
      simp [number, least, below]
    · intro text lacking other lackingOther same
      rcases sound.number_of_missing lacking with ⟨id, number, -, -⟩
      rcases sound.number_of_missing lackingOther with ⟨otherId, otherNumber, -, -⟩
      simp only [number, otherNumber, Option.map_some, Option.getD_some] at same
      have found := sound.numbered text id number
      rw [AttrId.ext same, sound.numbered other otherId otherNumber] at found
      exact (Option.some.inj found).symm
  have last := sound.next_le
  have least := sound.first_le
  rw [Nat.card_Ico] at count
  omega

end NameTable
end RecordGraph
