import RecordGraph.Proofs.NameTable

/-!
# Attribute lists in order

The two maps of an attribute list are inverse to each other, and the places are below the next one.
A new attribute therefore stands behind all others, and a list that is built from pairs with
different names holds just these pairs.
-/

namespace RecordGraph

section

variable {Key Content : Type} [Ord Key] [Std.TransOrd Key] [Std.LawfulEqOrd Key] [DecidableEq Key]

theorem getElem?_insert_eq (map : Std.ExtTreeMap Key Content) (key asked : Key)
    (content : Content) :
    (map.insert key content)[asked]? = if asked = key then some content else map[asked]? := by
  rw [Std.ExtTreeMap.getElem?_insert]
  by_cases same : asked = key
  · simp [same]
  · simp [same, Ne.symm same]

theorem getElem?_erase_eq (map : Std.ExtTreeMap Key Content) (key asked : Key) :
    (map.erase key)[asked]? = if asked = key then none else map[asked]? := by
  rw [Std.ExtTreeMap.getElem?_erase]
  by_cases same : asked = key
  · simp [same]
  · simp [same, Ne.symm same]

theorem insert_insert_same (map : Std.ExtTreeMap Key Content) (key : Key)
    (first second : Content) :
    (map.insert key first).insert key second = map.insert key second := by
  apply Std.ExtTreeMap.ext_getElem?
  intro asked
  simp only [getElem?_insert_eq]
  split <;> rfl

end

namespace AttrList

theorem set_set (list : AttrList) (id : AttrId) (first second : Value) :
    (list.set id first).set id second = list.set id second := by
  rcases list with ⟨placed, order, next⟩
  cases found : placed[id]? with
  | none | some => simp [set, found, insert_insert_same]

theorem rising_toList (order : Std.ExtTreeMap Nat AttrId) :
    order.toList.Pairwise fun first second => first.1 < second.1 :=
  order.ordered_keys_toList.imp fun less => Nat.compare_eq_lt.mp less

theorem toList_eq_of_rising {order : Std.ExtTreeMap Nat AttrId} {pairs : List (Nat × AttrId)}
    (rising : pairs.Pairwise fun first second => first.1 < second.1)
    (members : ∀ place id, (place, id) ∈ pairs ↔ order[place]? = some id) :
    order.toList = pairs := by
  have distinct {pairs : List (Nat × AttrId)}
      (rising : pairs.Pairwise fun first second => first.1 < second.1) : pairs.Nodup :=
    rising.imp fun less same => absurd (same ▸ less) (Nat.lt_irrefl _)
  apply @List.Perm.eq_of_pairwise _ fun first second => first.1 < second.1
  · intro first second _ _ less greater
    exact absurd (Nat.lt_trans less greater) (Nat.lt_irrefl _)
  · exact rising_toList order
  · exact rising
  · rw [List.perm_ext_iff_of_nodup (distinct (rising_toList order)) (distinct rising)]
    rintro ⟨place, id⟩
    rw [Std.ExtTreeMap.mem_toList_iff_getElem?_eq_some, members]

@[simp] theorem entries_empty : empty.entries = [] := by
  simp [entries, empty]

structure Sound (list : AttrList) : Prop where
  inverse : ∀ (place : Nat) (id : AttrId),
    list.order[place]? = some id ↔ ∃ value, list.placed[id]? = some (place, value)
  below : ∀ (place : Nat) (id : AttrId), list.order[place]? = some id → place < list.next

theorem sound_empty : empty.Sound where
  inverse place id := by simp [empty]
  below place id found := by simp [empty] at found

section

variable {list : AttrList} (sound : list.Sound)

include sound

theorem Sound.place_eq {id other : AttrId} {place : Nat} {value content : Value}
    (found : list.placed[id]? = some (place, value))
    (foundOther : list.placed[other]? = some (place, content)) : id = other := by
  have first := (sound.inverse place id).mpr ⟨value, found⟩
  have second := (sound.inverse place other).mpr ⟨content, foundOther⟩
  exact Option.some.inj (first.symm.trans second)

private theorem Sound.overwrite {id : AttrId} {place : Nat} {old : Value}
    (found : list.placed[id]? = some (place, old)) (value : Value) :
    Sound { list with placed := list.placed.insert id (place, value) } where
  inverse asked other := by
    rw [sound.inverse, getElem?_insert_eq]
    by_cases same : other = id
    · subst same
      simp [found]
    · simp [same]
  below := sound.below

private theorem Sound.append {id : AttrId} (missing : list.placed[id]? = none) (value : Value) :
    Sound ⟨list.placed.insert id (list.next, value), list.order.insert list.next id,
      list.next + 1⟩ where
  inverse asked other := by
    rw [getElem?_insert_eq, getElem?_insert_eq]
    by_cases new : asked = list.next
    · subst new
      by_cases same : other = id
      · simp [same]
      · rw [if_pos rfl, if_neg same, ← sound.inverse]
        constructor
        · intro equal
          exact absurd (Option.some.inj equal).symm same
        · intro found
          exact absurd (sound.below _ _ found) (Nat.lt_irrefl _)
    · rw [if_neg new]
      by_cases same : other = id
      · subst same
        rw [if_pos rfl, sound.inverse]
        simp [missing, Ne.symm new]
      · rw [if_neg same]
        exact sound.inverse asked other
  below asked other found := by
    rw [getElem?_insert_eq] at found
    split at found
    · rename_i same
      rw [same]
      exact Nat.lt_succ_self _
    · exact Nat.lt_succ_of_lt (sound.below asked other found)

theorem Sound.set (id : AttrId) (value : Value) : (list.set id value).Sound := by
  simp only [AttrList.set]
  split
  · rename_i place old found
    exact sound.overwrite found value
  · rename_i missing
    exact sound.append missing value

theorem Sound.modify (id : AttrId) (value : Value) : (list.modify id value).Sound := by
  unfold AttrList.modify
  split
  · exact sound.set id value
  · exact sound

theorem Sound.erase (id : AttrId) : (list.erase id).Sound := by
  simp only [AttrList.erase]
  split
  · rename_i place value found
    constructor
    · intro asked other
      rw [getElem?_erase_eq, getElem?_erase_eq]
      by_cases same : other = id
      · subst same
        rw [if_pos rfl]
        split
        · simp
        · rename_i elsewhere
          rw [sound.inverse]
          simp [found, Ne.symm elsewhere]
      · rw [if_neg same]
        split
        · rename_i here
          subst here
          simp only [reduceCtorEq, false_iff]
          rintro ⟨content, kept⟩
          exact same (sound.place_eq kept found)
        · exact sound.inverse asked other
    · intro asked other kept
      rw [getElem?_erase_eq] at kept
      split at kept
      · cases kept
      · exact sound.below asked other kept
  · exact sound

private theorem toList_insert_next (id : AttrId) :
    (list.order.insert list.next id).toList = list.order.toList ++ [(list.next, id)] := by
  have inside (pair : Nat × AttrId) (member : pair ∈ list.order.toList) : pair.1 < list.next :=
    sound.below pair.1 pair.2 (Std.ExtTreeMap.mem_toList_iff_getElem?_eq_some.mp member)
  refine toList_eq_of_rising ?_ fun place other => ?_
  · refine List.pairwise_append.mpr ⟨rising_toList _, List.pairwise_singleton _ _, ?_⟩
    intro first member second last
    rw [List.mem_singleton.mp last]
    exact inside first member
  · rw [getElem?_insert_eq, List.mem_append, Std.ExtTreeMap.mem_toList_iff_getElem?_eq_some,
      List.mem_singleton, Prod.mk.injEq]
    by_cases new : place = list.next
    · subst new
      have free : list.order[list.next]? ≠ some other := fun found =>
        absurd (sound.below _ _ found) (Nat.lt_irrefl _)
      simp [free, eq_comm]
    · simp [new]

omit sound in
private theorem toList_erase (order : Std.ExtTreeMap Nat AttrId) (place : Nat) :
    (order.erase place).toList = order.toList.filter (·.1 ≠ place) := by
  refine toList_eq_of_rising ((rising_toList order).filter _) fun asked id => ?_
  rw [List.mem_filter, Std.ExtTreeMap.mem_toList_iff_getElem?_eq_some, getElem?_erase_eq]
  by_cases same : asked = place <;> simp [same]

theorem Sound.entries_set {id : AttrId} (missing : list.placed[id]? = none) (value : Value) :
    (list.set id value).entries = list.entries ++ [(id, value)] := by
  have appended : list.set id value =
      ⟨list.placed.insert id (list.next, value), list.order.insert list.next id,
        list.next + 1⟩ := by
    rcases list with ⟨placed, order, next⟩
    simp only at missing
    simp only [AttrList.set, missing]
  rw [appended, entries, toList_insert_next sound, List.filterMap_append]
  congr 1
  · apply List.filterMap_congr
    rintro ⟨place, other⟩ member
    have found := (sound.inverse place other).mp
      (Std.ExtTreeMap.mem_toList_iff_getElem?_eq_some.mp member)
    simp only
    rw [getElem?_insert_eq, if_neg]
    rintro rfl
    rw [missing] at found
    simp at found
  · simp

omit sound in
theorem entries_set_present {id : AttrId} {place : Nat} {old : Value}
    (present : list.placed[id]? = some (place, old)) (value : Value) :
    (list.set id value).entries =
      list.entries.map fun entry => if entry.1 = id then (id, value) else entry := by
  rcases list with ⟨placed, order, next⟩
  simp only at present
  simp only [AttrList.set, present, entries, List.map_filterMap]
  apply List.filterMap_congr
  rintro ⟨asked, other⟩ -
  simp only [getElem?_insert_eq]
  by_cases same : other = id
  · simp [same, present]
  · simp [same, Function.comp_def]

theorem Sound.mem_entries {id : AttrId} {value : Value} :
    (id, value) ∈ list.entries ↔ ∃ place, list.placed[id]? = some (place, value) := by
  simp only [entries, List.mem_filterMap, Std.ExtTreeMap.mem_toList_iff_getElem?_eq_some,
    Prod.exists, Option.map_eq_some_iff, Prod.mk.injEq]
  constructor
  · rintro ⟨place, other, -, found, content, present, rfl, rfl⟩
    exact ⟨found, present⟩
  · rintro ⟨place, found⟩
    exact ⟨place, id, (sound.inverse place id).mpr ⟨value, found⟩, place, value, found, rfl, rfl⟩

theorem Sound.find?_eq_some_iff {id : AttrId} {value : Value} :
    list.find? id = some value ↔ (id, value) ∈ list.entries := by
  rw [sound.mem_entries, find?]
  simp

theorem Sound.entries_modify (id : AttrId) (value : Value) :
    (list.modify id value).entries =
      list.entries.map fun entry => if entry.1 = id then (id, value) else entry := by
  unfold AttrList.modify AttrList.contains
  rw [Std.ExtTreeMap.contains_eq_isSome_getElem?]
  cases present : list.placed[id]? with
  | some content => exact entries_set_present present value
  | none =>
    -- no entry is written over
    refine ((List.map_congr_left ?_).trans (List.map_id _)).symm
    rintro ⟨other, content⟩ member
    rcases sound.mem_entries.mp member with ⟨place, found⟩
    refine if_neg ?_
    rintro rfl
    rw [present] at found
    cases found

theorem Sound.entries_erase (id : AttrId) :
    (list.erase id).entries = list.entries.filter (·.1 ≠ id) := by
  cases present : list.placed[id]? with
  | none =>
    have same : list.erase id = list := by simp only [AttrList.erase, present]
    rw [same, List.filter_eq_self.mpr]
    rintro ⟨other, value⟩ member
    rcases sound.mem_entries.mp member with ⟨place, found⟩
    simp only [ne_eq, decide_not, Bool.not_eq_eq_eq_not, Bool.not_true, decide_eq_false_iff_not]
    rintro rfl
    rw [present] at found
    cases found
  | some content =>
    rcases content with ⟨place, old⟩
    simp only [AttrList.erase, present, entries, toList_erase, List.filterMap_filter,
      List.filter_filterMap]
    apply List.filterMap_congr
    rintro ⟨asked, other⟩ member
    rcases (sound.inverse asked other).mp
      (Std.ExtTreeMap.mem_toList_iff_getElem?_eq_some.mp member) with ⟨value, found⟩
    simp only [getElem?_erase_eq]
    by_cases same : other = id
    · subst same
      rw [present] at found
      cases found
      simp [present, Option.filter_some]
    · have elsewhere : asked ≠ place := by
        rintro rfl
        exact same (sound.place_eq found present)
      simp [same, elsewhere, found, Option.filter_some]

omit sound in
theorem entries_single (id : AttrId) (value : Value) :
    (single id value).entries = [(id, value)] :=
  sound_empty.entries_set (by simp [empty]) value

theorem Sound.eq_or_mem_of_mem_set {id : AttrId} {value : Value} {entry : AttrId × Value}
    (member : entry ∈ (list.set id value).entries) :
    entry = (id, value) ∨ entry ∈ list.entries := by
  rcases entry with ⟨other, content⟩
  rcases (sound.set id value).mem_entries.mp member with ⟨place, found⟩
  simp only [AttrList.set] at found
  split at found <;> rw [getElem?_insert_eq] at found <;> split at found
  · rename_i same
    cases found
    exact .inl (by rw [same])
  · exact .inr (sound.mem_entries.mpr ⟨place, found⟩)
  · rename_i same
    cases found
    exact .inl (by rw [same])
  · exact .inr (sound.mem_entries.mpr ⟨place, found⟩)

theorem Sound.nodup_entries : (list.entries.map (·.1)).Nodup := by
  rw [entries, List.map_filterMap]
  apply List.pairwise_filterMap.mpr
  apply list.order.ordered_keys_toList.imp_of_mem
  rintro ⟨place, id⟩ ⟨otherPlace, otherId⟩ member otherMember less
  simp only [Option.map_map, Option.map_eq_some_iff, Function.comp_apply]
  rintro _ ⟨_, _, rfl⟩ _ ⟨_, _, rfl⟩ rfl
  have standing {place : Nat} {id : AttrId} (member : (place, id) ∈ list.order.toList) :=
    (sound.inverse place id).mp (Std.ExtTreeMap.mem_toList_iff_getElem?_eq_some.mp member)
  rcases standing member with ⟨value, found⟩
  rcases standing otherMember with ⟨content, foundOther⟩
  rw [found] at foundOther
  cases foundOther
  exact absurd (Nat.compare_eq_lt.mp less) (Nat.lt_irrefl _)

theorem Sound.entries_of_isEmpty (none : list.isEmpty = true) : list.entries = [] := by
  apply List.eq_nil_iff_forall_not_mem.mpr
  rintro ⟨id, value⟩ member
  rcases sound.mem_entries.mp member with ⟨place, found⟩
  rw [isEmpty, Std.ExtTreeMap.isEmpty_iff] at none
  rw [none] at found
  simp at found

end

end AttrList

/-! ## Attributes by name -/

namespace NameTable

def Denotes (names : NameTable) (entries : List (AttrId × Value))
    (attrs : List (String × Value)) : Prop :=
  List.Forall₂ (fun entry attr => names.lookup entry.1 = some attr.1 ∧ entry.2 = attr.2)
    entries attrs

variable {names later : NameTable} {entries : List (AttrId × Value)}
  {attrs : List (String × Value)} {texts : Finset String}

theorem Denotes.keep (denotes : names.Denotes entries attrs) (keeps : names.Keeps later) :
    later.Denotes entries attrs :=
  List.Forall₂.imp (fun _ _ same => ⟨keeps.lookup _ _ same.1, same.2⟩) denotes

theorem Denotes.lookup_entries (denotes : names.Denotes entries attrs) :
    entries.map (fun entry => names.lookup entry.1) = attrs.map fun attr => some attr.1 := by
  rw [← List.forall₂_eq_eq_eq, List.forall₂_map_left_iff, List.forall₂_map_right_iff]
  exact List.Forall₂.imp (fun _ _ same => same.1) denotes

theorem Denotes.missing {list : AttrList} (denotes : names.Denotes list.entries attrs)
    (sound : list.Sound) {id : AttrId} {key : String} (found : names.lookup id = some key)
    (other : key ∉ attrs.map (·.1)) : list.placed[id]? = none := by
  cases present : list.placed[id]? with
  | none => rfl
  | some content =>
    have member := List.mem_map_of_mem (f := fun entry => names.lookup entry.1)
      (sound.mem_entries.mpr ⟨content.1, present⟩)
    rw [denotes.lookup_entries, found, List.mem_map] at member
    rcases member with ⟨attr, among, same⟩
    exact absurd (List.mem_map.mpr ⟨attr, among, Option.some.inj same⟩) other

theorem Denotes.set {list : AttrList} (denotes : names.Denotes list.entries attrs)
    (sound : list.Sound) {id : AttrId} {key : String} (found : names.lookup id = some key)
    (other : key ∉ attrs.map (·.1)) (value : Value) :
    names.Denotes (list.set id value).entries (attrs ++ [(key, value)]) := by
  rw [Denotes, sound.entries_set (denotes.missing sound found other)]
  exact List.rel_append denotes (.cons ⟨found, rfl⟩ .nil)

private theorem Fits.internOnto (fits : names.Fits texts) {list : AttrList} (sound : list.Sound)
    {done : List (String × Value)} (denotes : names.Denotes list.entries done)
    (known : ∀ attr ∈ attrs, names.fold attr.1 ∈ texts)
    (distinct : (done.map (·.1) ++ attrs.map fun attr => names.fold attr.1).Nodup) :
    ∃ more later, attrs.foldl
        (fun (list, names) (name, value) =>
          match names.intern name with
          | .ok (id, names) => (list.set id value, names)
          | .error _ => (list, names)) (list, names) = (more, later) ∧
      later.Fits texts ∧ names.Keeps later ∧ more.Sound ∧
      later.Denotes more.entries (done ++ attrs.map fun attr => (names.fold attr.1, attr.2)) := by
  induction attrs generalizing list names done with
  | nil => exact ⟨list, names, rfl, fits, .refl names, sound, by simpa using denotes⟩
  | cons attr attrs induction =>
    rcases attr with ⟨key, value⟩
    rcases fits.intern (known (key, value) List.mem_cons_self) with
      ⟨id, middle, interned, middleFits, keeps, found⟩
    have fresh : names.fold key ∉ done.map (·.1) := fun member =>
      (List.nodup_append.mp distinct).2.2 _ member _ List.mem_cons_self rfl
    have set := (denotes.keep keeps).set sound found fresh value
    have knownRest : ∀ attr ∈ attrs, middle.fold attr.1 ∈ texts := fun attr member => by
      rw [keeps.fold]
      exact known attr (List.mem_cons_of_mem _ member)
    rcases induction middleFits (sound.set id value) set knownRest
        (by simpa [keeps.fold] using distinct) with
      ⟨more, later, folded, laterFits, laterKeeps, moreSound, moreDenotes⟩
    refine ⟨more, later, ?_, laterFits, keeps.trans laterKeeps, moreSound, ?_⟩
    · rw [List.foldl_cons]
      simp only [interned]
      exact folded
    · simpa [keeps.fold] using moreDenotes

theorem Fits.internAttrs (fits : names.Fits texts)
    (known : ∀ attr ∈ attrs, names.fold attr.1 ∈ texts)
    (distinct : (attrs.map fun attr => names.fold attr.1).Nodup) :
    ∃ list later, names.internAttrs attrs = (list, later) ∧ later.Fits texts ∧
      names.Keeps later ∧ list.Sound ∧
      later.Denotes list.entries (attrs.map fun attr => (names.fold attr.1, attr.2)) := by
  have start : names.Denotes AttrList.empty.entries [] := by
    rw [AttrList.entries_empty]
    exact .nil
  exact fits.internOnto AttrList.sound_empty start known distinct

structure Interns (names : NameTable) (attrs : List (String × Value))
    (done : AttrList × NameTable) : Prop where
  list : done.1.Sound
  later : done.2.Sound
  keeps : names.Keeps done.2
  entries : ∀ entry ∈ done.1.entries,
    ∃ attr ∈ attrs, done.2.lookup entry.1 = some (names.fold attr.1) ∧ entry.2 = attr.2

theorem Sound.internAttrs (sound : names.Sound) (attrs : List (String × Value)) :
    names.Interns attrs (names.internAttrs attrs) := by
  apply List.foldlRecOn (motive := names.Interns attrs)
  · refine ⟨AttrList.sound_empty, sound, .refl names, fun entry member => ?_⟩
    simp at member
  · rintro ⟨list, middle⟩ interns ⟨name, value⟩ among
    simp only
    split
    · rename_i id later interned
      have more := interns.later.intern interned
      have found := more.1.query_eq_some_iff.mp (query_of_interned interned)
      rw [more.2.fold, interns.keeps.fold] at found
      refine ⟨interns.list.set id value, more.1, interns.keeps.trans more.2, fun entry member => ?_⟩
      rcases interns.list.eq_or_mem_of_mem_set member with rfl | old
      · exact ⟨(name, value), among, found, rfl⟩
      · rcases interns.entries entry old with ⟨attr, known, same, equal⟩
        exact ⟨attr, known, more.2.lookup _ _ same, equal⟩
    · exact interns

end NameTable
end RecordGraph
