import RecordGraph.Arena.Attributes
import RecordGraph.Proofs.AttrList
import RecordGraph.Proofs.NameTable.History

/-!
# Attributes that are left standing

What changes have left is told from the changes alone: an attribute stands if its name was stored
and not removed since, its value is the last one that was stored or written over it, and its age is
the number of changes before the one that brought its name. A list that records the changes holds
just these attributes, and they stand in the order of their age.
-/

namespace RecordGraph
open NameTable

def SameAttr (first second : String) : Prop :=
  Origin.attributes.fold first = Origin.attributes.fold second

instance (first second : String) : Decidable (SameAttr first second) :=
  inferInstanceAs (Decidable (_ = _))

structure Standing where
  since : Nat
  value : Value
deriving DecidableEq, Repr

def standing (name : String) : List AttrChange → Option Standing
  | [] => none
  | .store stored value :: earlier =>
    if SameAttr stored name then
      some ⟨((standing name earlier).map (·.since)).getD earlier.length, value⟩
    else standing name earlier
  | .overwrite changed value :: earlier =>
    if SameAttr changed name then (standing name earlier).map ({ · with value })
    else standing name earlier
  | .erase erased :: earlier => if SameAttr erased name then none else standing name earlier
  | .clear :: _ => none

example : standing "value" [.overwrite "Value" (.int 3), .store "x" (.int 2), .store "" (.int 1)] =
    some ⟨0, .int 3⟩ := by decide +kernel

/-! ## Names -/

theorem NameTable.Sound.fold_eq_fold {names : NameTable} (sound : names.Sound) (name : String) :
    names.fold name = Origin.attributes.fold name := by
  simp [fold, sound.foldsCase, Origin.fold]

theorem NameTable.Sound.eq_iff_of_lookup {names : NameTable} (sound : names.Sound)
    {id other : AttrId} {key text : String} (found : names.lookup id = some key)
    (foundOther : names.lookup other = some text) : other = id ↔ text = key := by
  constructor
  · rintro rfl
    rw [found] at foundOther
    exact (Option.some.inj foundOther).symm
  · rintro rfl
    exact sound.lookup_inj foundOther found

theorem foldAttr_foldAttr (name : String) :
    Origin.attributes.fold (Origin.attributes.fold name) = Origin.attributes.fold name := by
  simp only [← sound_attributes.fold_eq_fold]
  exact NameTable.fold_fold _ name

theorem sameAttr_iff {name key : String} (folded : Origin.attributes.fold key = key) :
    SameAttr name key ↔ key = Origin.attributes.fold name := by
  rw [SameAttr, folded, eq_comm]

/-! ## Changes -/

section

variable {name asked : String} {changes : List AttrChange}

theorem standing_congr (same : SameAttr name asked) (changes : List AttrChange) :
    standing name changes = standing asked changes := by
  have agree (other : String) : SameAttr other name ↔ SameAttr other asked := by
    unfold SameAttr at same ⊢
    rw [same]
  induction changes with
  | nil => rfl
  | cons change earlier induction => cases change <;> simp only [standing, agree, induction]

theorem since_lt_of_standing {attr : Standing} (found : standing name changes = some attr) :
    attr.since < changes.length := by
  induction changes generalizing attr with
  | nil => cases found
  | cons change earlier induction =>
    rw [List.length_cons]
    cases change with
    | store stored value =>
      rw [standing] at found
      split at found
      · cases found
        cases before : standing name earlier with
        | none => exact Nat.lt_succ_self _
        | some old =>
          have older := induction before
          exact Nat.lt_succ_of_lt older
      · exact Nat.lt_succ_of_lt (induction found)
    | overwrite changed value =>
      rw [standing] at found
      split at found
      · rcases Option.map_eq_some_iff.mp found with ⟨old, before, rfl⟩
        have older := induction before
        exact Nat.lt_succ_of_lt older
      · exact Nat.lt_succ_of_lt (induction found)
    | erase erased =>
      rw [standing] at found
      split at found
      · cases found
      · exact Nat.lt_succ_of_lt (induction found)
    | clear => cases found

theorem standing_store_of_some {attr : Standing} (stands : standing name changes = some attr)
    (value : Value) (asked : String) :
    standing asked (.store name value :: changes) =
      standing asked (.overwrite name value :: changes) := by
  simp only [standing]
  split
  · rename_i same
    rw [← standing_congr same, stands]
    rfl
  · rfl

theorem standing_overwrite_of_none (missing : standing name changes = none) (value : Value)
    (asked : String) :
    standing asked (.overwrite name value :: changes) = standing asked changes := by
  simp only [standing]
  split
  · rename_i same
    rw [← standing_congr same, missing]
    rfl
  · rfl

theorem standing_erase_of_none (missing : standing name changes = none) (asked : String) :
    standing asked (.erase name :: changes) = standing asked changes := by
  simp only [standing]
  split
  · rename_i same
    rw [← standing_congr same, missing]
  · rfl

end

/-! ## Lists that record changes -/

namespace NameTable

variable {names later : NameTable} {entries : List (AttrId × Value)}
  {attrs : List (String × Value)} {changes : List AttrChange}

theorem Denotes.exists_entry (denotes : names.Denotes entries attrs) {key : String} {value : Value}
    (among : (key, value) ∈ attrs) :
    ∃ id, (id, value) ∈ entries ∧ names.lookup id = some key := by
  induction denotes with
  | nil => cases among
  | @cons entry attr entries attrs same _ induction =>
    rcases List.mem_cons.mp among with rfl | among
    · exact ⟨entry.1, List.mem_cons.mpr (.inl (Prod.ext rfl same.2.symm)), same.1⟩
    · rcases induction among with ⟨id, member, found⟩
      exact ⟨id, List.mem_cons_of_mem _ member, found⟩

theorem Denotes.exists_attr (denotes : names.Denotes entries attrs) {id : AttrId} {value : Value}
    (member : (id, value) ∈ entries) :
    ∃ key, (key, value) ∈ attrs ∧ names.lookup id = some key := by
  induction denotes with
  | nil => cases member
  | @cons entry attr entries attrs same _ induction =>
    rcases List.mem_cons.mp member with rfl | member
    · exact ⟨attr.1, List.mem_cons.mpr (.inl (Prod.ext rfl same.2)), same.1⟩
    · rcases induction member with ⟨key, among, found⟩
      exact ⟨key, List.mem_cons_of_mem _ among, found⟩

def Records (names : NameTable) (entries : List (AttrId × Value)) (changes : List AttrChange) :
    Prop :=
  ∃ present : List (String × Standing),
    names.Denotes entries (present.map fun (key, attr) => (key, attr.value)) ∧
      (present.Pairwise fun first second => first.2.since < second.2.since) ∧
      ∀ key attr, (key, attr) ∈ present ↔
        Origin.attributes.fold key = key ∧ standing key changes = some attr

theorem Records.keep (records : names.Records entries changes) (keeps : names.Keeps later) :
    later.Records entries changes := by
  rcases records with ⟨present, denotes, rising, members⟩
  exact ⟨present, denotes.keep keeps, rising, members⟩

theorem Records.congr {others : List AttrChange} (records : names.Records entries changes)
    (same : ∀ asked, standing asked others = standing asked changes) :
    names.Records entries others := by
  rcases records with ⟨present, denotes, rising, members⟩
  refine ⟨present, denotes, rising, fun key attr => ?_⟩
  rw [same, members]

theorem records_nil : names.Records [] [] :=
  ⟨[], .nil, .nil, fun key attr => by simp [standing]⟩

theorem records_clear : names.Records [] (.clear :: changes) :=
  ⟨[], .nil, .nil, fun key attr => by simp [standing]⟩

theorem Records.exists_entry (records : names.Records entries changes) {name : String}
    {attr : Standing} (found : standing name changes = some attr) :
    ∃ id, (id, attr.value) ∈ entries ∧ names.lookup id = some (Origin.attributes.fold name) := by
  rcases records with ⟨present, denotes, -, members⟩
  have same : SameAttr name (Origin.attributes.fold name) :=
    (sameAttr_iff (foldAttr_foldAttr name)).mpr rfl
  have stands := (members (Origin.attributes.fold name) attr).mpr
    ⟨foldAttr_foldAttr name, by rwa [← standing_congr same]⟩
  exact denotes.exists_entry (List.mem_map.mpr ⟨_, stands, rfl⟩)

theorem Records.exists_standing (records : names.Records entries changes) {id : AttrId}
    {value : Value} (member : (id, value) ∈ entries) :
    ∃ key attr, names.lookup id = some key ∧ standing key changes = some attr ∧
      attr.value = value := by
  rcases records with ⟨present, denotes, -, members⟩
  rcases denotes.exists_attr member with ⟨key, among, found⟩
  rcases List.mem_map.mp among with ⟨⟨other, attr⟩, stands, same⟩
  cases same
  exact ⟨_, attr, found, ((members _ attr).mp stands).2, rfl⟩

theorem Records.append (records : names.Records entries changes) {name : String} {id : AttrId}
    (found : names.lookup id = some (Origin.attributes.fold name))
    (missing : standing name changes = none) (value : Value) :
    names.Records (entries ++ [(id, value)]) (.store name value :: changes) := by
  rcases records with ⟨present, denotes, rising, members⟩
  refine ⟨present ++ [(Origin.attributes.fold name, ⟨changes.length, value⟩)], ?_, ?_, ?_⟩
  · rw [List.map_append]
    exact List.rel_append denotes (.cons ⟨found, rfl⟩ .nil)
  · refine List.pairwise_append.mpr ⟨rising, List.pairwise_singleton _ _, ?_⟩
    rintro ⟨key, attr⟩ among _ last
    rw [List.mem_singleton.mp last]
    exact since_lt_of_standing ((members key attr).mp among).2
  · intro key attr
    rw [List.mem_append, members, List.mem_singleton, Prod.mk.injEq]
    by_cases new : key = Origin.attributes.fold name
    · have folded : Origin.attributes.fold key = key := by
        rw [new, foldAttr_foldAttr]
      have same := (sameAttr_iff folded).mpr new
      rw [standing, if_pos same, ← standing_congr same, missing]
      simp [new, eq_comm, foldAttr_foldAttr]
    · simp only [new, false_and, or_false]
      refine and_congr_right fun folded => ?_
      rw [standing, if_neg fun same => new ((sameAttr_iff folded).mp same)]

section

variable (sound : names.Sound) (records : names.Records entries changes) {name : String}

include sound records

theorem Records.standing_eq_none (missing : names.query name = none) :
    standing name changes = none := by
  cases found : standing name changes with
  | none => rfl
  | some attr =>
    rcases records.exists_entry found with ⟨id, -, known⟩
    rw [← sound.fold_eq_fold, ← sound.query_eq_some_iff, missing] at known
    cases known

variable {id : AttrId} (found : names.lookup id = some (Origin.attributes.fold name))

include found

theorem Records.overwrite (value : Value) :
    names.Records (entries.map fun entry => if entry.1 = id then (id, value) else entry)
      (.overwrite name value :: changes) := by
  rcases records with ⟨present, denotes, rising, members⟩
  refine ⟨present.map fun (key, attr) =>
    (key, if key = Origin.attributes.fold name then { attr with value } else attr), ?_, ?_, ?_⟩
  · rw [List.map_map, Denotes, List.forall₂_map_left_iff, List.forall₂_map_right_iff]
    rw [Denotes, List.forall₂_map_right_iff] at denotes
    refine denotes.imp fun entry attr same => ?_
    have agree := sound.eq_iff_of_lookup found same.1
    by_cases here : attr.1 = Origin.attributes.fold name
    · simp [agree.mpr here, here, found]
    · simp [mt agree.mp here, here, same]
  · refine List.pairwise_map.mpr (rising.imp fun less => ?_)
    dsimp only
    split <;> split <;> exact less
  · intro key attr
    rw [List.mem_map]
    constructor
    · rintro ⟨⟨_, old⟩, among, same⟩
      cases same
      rcases (members key old).mp among with ⟨folded, stands⟩
      refine ⟨folded, ?_⟩
      rw [standing, stands]
      by_cases here : key = Origin.attributes.fold name
      · rw [if_pos ((sameAttr_iff folded).mpr here), if_pos here]
        rfl
      · rw [if_neg (mt (sameAttr_iff folded).mp here), if_neg here]
    · rintro ⟨folded, stands⟩
      rw [standing] at stands
      split at stands
      · rename_i same
        rcases Option.map_eq_some_iff.mp stands with ⟨old, before, rfl⟩
        exact ⟨(key, old), (members key old).mpr ⟨folded, before⟩,
          by simp [(sameAttr_iff folded).mp same]⟩
      · rename_i other
        exact ⟨(key, attr), (members key attr).mpr ⟨folded, stands⟩,
          by simp [mt (sameAttr_iff folded).mpr other]⟩

theorem Records.erase :
    names.Records (entries.filter (·.1 ≠ id)) (.erase name :: changes) := by
  rcases records with ⟨present, denotes, rising, members⟩
  refine ⟨present.filter (·.1 ≠ Origin.attributes.fold name), ?_, rising.filter _, ?_⟩
  · rw [Denotes, List.forall₂_map_right_iff] at denotes ⊢
    refine List.rel_filter (fun entry attr same => ?_) denotes
    simp only [ne_eq, decide_eq_true_eq, sound.eq_iff_of_lookup found same.1]
  · intro key attr
    rw [List.mem_filter, members, and_assoc]
    refine and_congr_right fun folded => ?_
    rw [standing]
    by_cases here : key = Origin.attributes.fold name
    · rw [if_pos ((sameAttr_iff folded).mpr here)]
      simp [here]
    · simp [mt (sameAttr_iff folded).mp here, here]

end

section

variable {list : AttrList} (sound : names.Sound) (listSound : list.Sound)
  (records : names.Records list.entries changes) {name : String}

include sound listSound records

theorem Records.store {id : AttrId} (found : names.lookup id = some (Origin.attributes.fold name))
    (value : Value) : names.Records (list.set id value).entries (.store name value :: changes) := by
  cases stands : standing name changes with
  | none =>
    have missing : list.placed[id]? = none := by
      cases present : list.placed[id]? with
      | none => rfl
      | some content =>
        have member := listSound.mem_entries.mpr ⟨content.1, present⟩
        rcases records.exists_standing member with ⟨key, attr, known, other, -⟩
        rw [found, Option.some.injEq] at known
        have same : SameAttr name key := by
          rw [SameAttr, ← known, foldAttr_foldAttr]
        rw [← standing_congr same, stands] at other
        cases other
    rw [listSound.entries_set missing]
    exact records.append found stands value
  | some attr =>
    rcases records.exists_entry stands with ⟨other, member, known⟩
    rw [sound.lookup_inj known found] at member
    rcases listSound.mem_entries.mp member with ⟨place, present⟩
    rw [AttrList.entries_set_present present]
    exact (records.overwrite sound found value).congr (standing_store_of_some stands value)

theorem Records.find?_eq :
    (names.query name).bind list.find? = (standing name changes).map (·.value) := by
  apply Option.ext
  intro value
  rw [Option.bind_eq_some_iff, Option.map_eq_some_iff]
  constructor
  · rintro ⟨id, known, found⟩
    rw [sound.query_eq_some_iff, sound.fold_eq_fold] at known
    rcases records.exists_standing (listSound.find?_eq_some_iff.mp found) with
      ⟨key, attr, other, stands, same⟩
    rw [known, Option.some.injEq] at other
    have spelled : SameAttr name key := by
      rw [SameAttr, ← other, foldAttr_foldAttr]
    exact ⟨attr, (standing_congr spelled changes).trans stands, same⟩
  · rintro ⟨attr, stands, rfl⟩
    rcases records.exists_entry stands with ⟨id, member, known⟩
    refine ⟨id, ?_, listSound.find?_eq_some_iff.mpr member⟩
    rwa [sound.query_eq_some_iff, sound.fold_eq_fold]

end

/-! ## Lists as they are -/

def stores (names : NameTable) (entries : List (AttrId × Value)) : List AttrChange :=
  entries.reverse.filterMap fun (id, value) => (names.lookup id).map (.store · value)

theorem Sound.records_stores (sound : names.Sound)
    (known : ∀ entry ∈ entries, ∃ key, names.lookup entry.1 = some key)
    (distinct : (entries.map (·.1)).Nodup) : names.Records entries (names.stores entries) := by
  induction entries using List.reverseRecOn with
  | nil => exact records_nil
  | append_singleton entries entry induction =>
    rcases entry with ⟨id, value⟩
    rw [List.map_append, List.nodup_append] at distinct
    rcases distinct with ⟨distinctFront, -, apart⟩
    have records := induction (fun entry member => known entry (List.mem_append_left _ member))
      distinctFront
    rcases known (id, value) (List.mem_append_right _ (List.mem_singleton.mpr rfl)) with
      ⟨key, found⟩
    have folded : Origin.attributes.fold key = key := by
      rw [← sound.fold_eq_fold]
      exact (sound.named id key found).2
    have missing : standing key (names.stores entries) = none := by
      cases stands : standing key (names.stores entries) with
      | none => rfl
      | some attr =>
        rcases records.exists_entry stands with ⟨other, member, again⟩
        rw [folded] at again
        exact absurd (sound.lookup_inj again found)
          (apart other (List.mem_map.mpr ⟨_, member, rfl⟩) id (List.mem_singleton.mpr rfl))
    have appended : names.stores (entries ++ [(id, value)]) =
        .store key value :: names.stores entries := by
      simp [stores, found]
    rw [appended]
    exact records.append (by rw [folded, found]) missing value

end NameTable
end RecordGraph
