import RecordGraph.Proofs.NameTable

/-!
# Histories of a name table

Names come into a table, are referred to and released, vanish and come back. The maps stay inverse
to each other, each count tells the references that were added and not released since the name came,
and a name that comes back has an id that no name had before.
-/

namespace RecordGraph.NameTable

inductive Operation where
  | add (name : String)
  | tryAdd (name : String)
  | intern (name : String)
  | set (name : String) (create : Bool)
  | retain (id : AttrId)
  | release (id : AttrId)

inductive Origin where
  | plain (first : Nat)
  | attributes

namespace Origin

def table : Origin → NameTable
  | .plain first => .empty first
  | .attributes => .attributes

def fold : Origin → String → String
  | .plain _, name => name
  | .attributes, name => if name = "" then "VALUE" else Text.asciiUpperCase name

def pinned : Origin → List (AttrId × String)
  | .plain _ => []
  | .attributes => NameTable.pinned

end Origin

/-- A table, the ids given out for new names with the latest first, and how many references to each
id were added and released since its name came into the table. -/
structure History where
  table : NameTable
  given : List AttrId
  added : AttrId → Nat
  released : AttrId → Nat

namespace History

def start (origin : Origin) : History :=
  ⟨origin.table, [], fun _ => 0, fun _ => 0⟩

def enter (history : History) (id : AttrId) (table : NameTable) : History :=
  ⟨table, id :: history.given, Function.update history.added id 0,
    Function.update history.released id 0⟩

def refer (history : History) (id : AttrId) (table : NameTable) : History :=
  { history with table, added := Function.update history.added id (history.added id + 1) }

def came (history : History) (name : String) (id : AttrId) (table : NameTable) : History :=
  if (history.table.query name).isSome then history.refer id table else history.enter id table

/-- The history after an operation. With no number left for a new name `tryAdd` gives an error, and
the others stop; the table is the one that `tryAdd` leaves. -/
def apply (history : History) : Operation → History
  | .tryAdd name =>
    match history.table.tryAdd name with
    | (.ok id, table) => history.came name id table
    | (.error _, table) => { history with table }
  | .add name | .set name true =>
    match history.table.add name with
    | .ok (id, table) => history.came name id table
    | .error _ => { history with table := (history.table.tryAdd name).2 }
  | .intern name =>
    match history.table.intern name with
    | .ok (id, table) =>
      if (history.table.query name).isSome then { history with table }
      else history.enter id table
    | .error _ => { history with table := (history.table.tryAdd name).2 }
  | .set name false =>
    match history.table.addExisting name with
    | (some id, table) => history.refer id table
    | (none, table) => { history with table }
  | .retain id => history.refer id (history.table.retain id)
  | .release id =>
    { history with
      table := history.table.release id
      released := Function.update history.released id (history.released id + 1) }

def run (history : History) (operations : List Operation) : History :=
  operations.foldl apply history

end History

/-- A name that is there gets a reference, a new one gets the next number, and with the last number
gone it is refused. -/
theorem tryAdd_cases (names : NameTable) (name : String) :
    (∃ id, names.query name = some id ∧ names.tryAdd name = (.ok id, names.retain id)) ∨
      names.query name = none ∧
        (names.next < lastNumber ∧
            names.tryAdd name = (.ok ⟨names.next⟩, names.appended (names.fold name)) ∨
          lastNumber ≤ names.next ∧ names.tryAdd name = (.error ⟨names.size⟩, names)) := by
  cases known : names.query name with
  | some id => exact .inl ⟨id, rfl, by rw [tryAdd, known]⟩
  | none =>
    right
    refine ⟨rfl, ?_⟩
    have asked : names.tryAdd name = names.insertNew (names.fold name) := by rw [tryAdd, known]
    by_cases room : names.next < lastNumber
    · exact .inl ⟨room, by rw [asked, insertNew_eq room]⟩
    · exact .inr ⟨by omega, by rw [asked, insertNew, if_neg room]⟩

theorem tryAdd_eq_error_iff {names : NameTable} {name : String} {exhausted : NamesExhausted} :
    (names.tryAdd name).1 = .error exhausted ↔
      names.query name = none ∧ lastNumber ≤ names.next ∧ exhausted.count = names.size := by
  rcases exhausted with ⟨count⟩
  rcases names.tryAdd_cases name with
    ⟨id, known, added⟩ | ⟨missing, ⟨room, added⟩ | ⟨full, added⟩⟩
  · simp [known, added]
  · simp [added, room]
  · simp [missing, added, full, eq_comm]

theorem tryAdd_refused {names : NameTable} {name : String} {exhausted : NamesExhausted}
    (failed : (names.tryAdd name).1 = .error exhausted) : (names.tryAdd name).2 = names := by
  rcases names.tryAdd_cases name with
    ⟨id, known, added⟩ | ⟨missing, ⟨room, added⟩ | ⟨full, added⟩⟩
  · rw [added] at failed
    cases failed
  · rw [added] at failed
    cases failed
  · rw [added]

theorem add_eq_error_iff {names : NameTable} {name : String} {exhausted : NamesExhausted} :
    names.add name = .error exhausted ↔ (names.tryAdd name).1 = .error exhausted := by
  unfold add
  split <;> simp [*]

namespace History

theorem tryAdd_step (history : History) (name : String) :
    (history.table.query name = none ∧
        history.apply (.tryAdd name) =
          history.enter ⟨history.table.next⟩
            (history.table.appended (history.table.fold name))) ∨
      (∃ id, history.apply (.tryAdd name) = history.refer id (history.table.retain id)) ∨
      history.apply (.tryAdd name) = history := by
  rcases history.table.tryAdd_cases name with
    ⟨id, known, added⟩ | ⟨missing, ⟨-, added⟩ | ⟨-, added⟩⟩
  · exact .inr (.inl ⟨id, by simp [apply, added, came, known]⟩)
  · exact .inl ⟨missing, by simp [apply, added, came, missing]⟩
  · exact .inr (.inr (by simp [apply, added]))

theorem apply_refused (history : History) {name : String} {reason : NamesExhausted}
    (failed : (history.table.tryAdd name).1 = .error reason) :
    history.apply (.tryAdd name) = history := by
  have same := tryAdd_refused failed
  rcases tried : history.table.tryAdd name with ⟨result, left⟩
  rw [tried] at failed same
  cases failed
  change left = history.table at same
  simp only [apply, tried, same]

/-- A call that stops with no number left leaves what `tryAdd` leaves. -/
theorem add_step (history : History) (name : String) :
    history.apply (.add name) = history.apply (.tryAdd name) := by
  rcases history.table.tryAdd_cases name with
    ⟨id, -, added⟩ | ⟨-, ⟨-, added⟩ | ⟨-, added⟩⟩
  · simp [apply, add, added]
  · simp [apply, add, added]
  · simp [apply, add, added]

theorem apply_cases (history : History) (operation : Operation) :
    (∃ name, history.table.query name = none ∧
        history.apply operation =
          history.enter ⟨history.table.next⟩
            (history.table.appended (history.table.fold name))) ∨
      (∃ id, history.apply operation = history.refer id (history.table.retain id)) ∨
      (∃ id, history.apply operation =
        { history with
          table := history.table.release id
          released := Function.update history.released id (history.released id + 1) }) ∨
      history.apply operation = history := by
  have addition (name : String) :
      (∃ new, history.table.query new = none ∧
          history.apply (.add name) =
            history.enter ⟨history.table.next⟩
              (history.table.appended (history.table.fold new))) ∨
        (∃ id, history.apply (.add name) = history.refer id (history.table.retain id)) ∨
        history.apply (.add name) = history := by
    rw [add_step]
    exact (history.tryAdd_step name).imp_left fun new => ⟨name, new⟩
  cases operation with
  | add name =>
    rcases addition name with new | old | same
    · exact .inl new
    · exact .inr (.inl old)
    · exact .inr (.inr (.inr same))
  | tryAdd name =>
    rcases history.tryAdd_step name with new | old | same
    · exact .inl ⟨name, new⟩
    · exact .inr (.inl old)
    · exact .inr (.inr (.inr same))
  | intern name =>
    cases known : history.table.query name with
    | some id =>
      have found : history.table.intern name = .ok (id, history.table) := by rw [intern, known]
      exact .inr (.inr (.inr (by simp [apply, found, known])))
    | none =>
      have asked := intern_of_missing known
      by_cases room : history.table.next < lastNumber
      · exact .inl ⟨name, known, by simp [apply, asked, add_of_new known room, known]⟩
      · have full := add_of_full known room
        have same := tryAdd_refused (add_eq_error_iff.mp full)
        exact .inr (.inr (.inr (by simp [apply, asked, full, same])))
  | set name create =>
    cases create with
    | true =>
      rcases addition name with new | old | same
      · exact .inl new
      · exact .inr (.inl old)
      · exact .inr (.inr (.inr same))
    | false =>
      cases known : history.table.query name with
      | some id => exact .inr (.inl ⟨id, by simp [apply, addExisting, known]⟩)
      | none => exact .inr (.inr (.inr (by simp [apply, addExisting, known])))
  | retain id => exact .inr (.inl ⟨id, rfl⟩)
  | release id => exact .inr (.inr (.inl ⟨id, rfl⟩))

/-! ## What a history keeps -/

structure Faithful (origin : Origin) (history : History) : Prop where
  folds : history.table.foldsCase = origin.table.foldsCase
  inverse : history.table.Inverse
  increasing : history.given.Pairwise fun later earlier => earlier.number < later.number
  given_below : ∀ id ∈ history.given, id.number < history.table.next
  counted : ∀ id entry, history.table.entries[id]? = some entry →
    1 ≤ entry.references ∧
      (entry.pinned = false → entry.references + history.released id = 1 + history.added id)
  pinned : ∀ pair ∈ origin.pinned, ∃ references,
    history.table.entries[pair.1]? = some ⟨pair.2, references, true⟩
  pinned_mem : ∀ id entry, history.table.entries[id]? = some entry → entry.pinned = true →
    (id, entry.text) ∈ origin.pinned
  source : ∀ id text, history.table.lookup id = some text →
    id ∈ history.given ∨ (id, text) ∈ origin.pinned

theorem inverse_empty (first : Nat) : (empty first).Inverse where
  numbered text id found := by simp [empty] at found
  named id text found := by simp [empty, lookup, entry?] at found
  below id text found := by simp [empty, lookup, entry?] at found

theorem faithful_plain (first : Nat) : (start (.plain first)).Faithful (.plain first) where
  folds := rfl
  inverse := inverse_empty first
  increasing := .nil
  given_below _ member := absurd member List.not_mem_nil
  counted id entry found := by simp [start, Origin.table, empty] at found
  pinned _ member := absurd member List.not_mem_nil
  pinned_mem id entry found := by simp [start, Origin.table, empty] at found
  source id text found := by simp [start, Origin.table, empty, lookup, entry?] at found

private theorem entries_attributes {id : AttrId} {entry : NameEntry}
    (found : attributes.entries[id]? = some entry) :
    entry.pinned = true ∧ entry.references = 1 ∧ (id, entry.text) ∈ NameTable.pinned := by
  have all : ∀ pair ∈ attributes.entries.toList, pair.2.pinned = true ∧
      pair.2.references = 1 ∧ (pair.1, pair.2.text) ∈ NameTable.pinned := by
    decide +kernel
  exact all (id, entry) (Std.ExtTreeMap.mem_toList_iff_getElem?_eq_some.mpr found)

theorem faithful_attributes : (start .attributes).Faithful .attributes where
  folds := rfl
  inverse := sound_attributes.inverse
  increasing := .nil
  given_below _ member := absurd member List.not_mem_nil
  counted id entry found := by
    rcases entries_attributes found with ⟨held, one, -⟩
    refine ⟨Nat.le_of_eq one.symm, fun free => ?_⟩
    rw [held] at free
    cases free
  pinned := sound_attributes.pinned
  pinned_mem id entry found _ := (entries_attributes found).2.2
  source id text found := by
    rcases lookup_eq_some_iff.mp found with ⟨entry, present, rfl⟩
    exact .inr (entries_attributes present).2.2

theorem faithful_start (origin : Origin) : (start origin).Faithful origin := by
  cases origin with
  | plain first => exact faithful_plain first
  | attributes => exact faithful_attributes

namespace Faithful

variable {origin : Origin} {history : History} (faithful : history.Faithful origin)

include faithful

theorem enter {name : String} (missing : history.table.query name = none) :
    (history.enter ⟨history.table.next⟩
      (history.table.appended (history.table.fold name))).Faithful origin where
  folds := faithful.folds
  inverse := faithful.inverse.appended missing
  increasing := List.pairwise_cons.mpr ⟨faithful.given_below, faithful.increasing⟩
  given_below id member := by
    rcases List.mem_cons.mp member with rfl | earlier
    · exact Nat.lt_succ_self _
    · exact Nat.lt_succ_of_lt (faithful.given_below id earlier)
  counted id entry found := by
    change (history.table.appended (history.table.fold name)).entries[id]? = some entry at found
    rw [entries_appended] at found
    split at found
    · rename_i new
      cases found
      simp [History.enter, new]
    · rename_i old
      simpa [History.enter, Function.update_of_ne old] using faithful.counted id entry found
  pinned pair member := by
    rcases faithful.pinned pair member with ⟨references, found⟩
    refine ⟨references, ?_⟩
    change (history.table.appended (history.table.fold name)).entries[pair.1]? = _
    rw [entries_appended, if_neg, found]
    intro same
    have absent := faithful.inverse.lookup_next
    rw [← same, lookup, entry?, found] at absent
    cases absent
  pinned_mem id entry found held := by
    change (history.table.appended (history.table.fold name)).entries[id]? = some entry at found
    rw [entries_appended] at found
    split at found
    · cases found
      cases held
    · exact faithful.pinned_mem id entry found held
  source id text found := by
    change (history.table.appended (history.table.fold name)).lookup id = some text at found
    rw [lookup_appended] at found
    split at found
    · rename_i new
      exact .inl (List.mem_cons.mpr (.inl new))
    · exact (faithful.source id text found).imp_left (List.mem_cons_of_mem _)

theorem countReferences {asked : AttrId} {change : Nat → Nat} {added released : AttrId → Nat}
    (elsewhere : ∀ id, id ≠ asked →
      added id = history.added id ∧ released id = history.released id)
    (follows : ∀ entry, history.table.entries[asked]? = some entry →
      1 ≤ change entry.references ∧
        (entry.pinned = false → change entry.references + released asked = 1 + added asked)) :
    (History.mk (history.table.countReferences asked change) history.given added
      released).Faithful origin where
  folds := faithful.folds
  inverse := faithful.inverse.countReferences asked change
  increasing := faithful.increasing
  given_below := faithful.given_below
  counted id entry found := by
    rw [entries_countReferences] at found
    split at found
    · rename_i same
      subst same
      rcases Option.map_eq_some_iff.mp found with ⟨earlier, present, rfl⟩
      exact follows earlier present
    · rename_i other
      rcases elsewhere id other with ⟨sameAdded, sameReleased⟩
      simpa only [sameAdded, sameReleased] using faithful.counted id entry found
  pinned pair member := pinned_countReferences (faithful.pinned pair member) asked change
  pinned_mem id entry found held := by
    rw [entries_countReferences] at found
    split at found
    · rename_i same
      subst same
      rcases Option.map_eq_some_iff.mp found with ⟨earlier, present, rfl⟩
      exact faithful.pinned_mem id earlier present held
    · exact faithful.pinned_mem id entry found held
  source id text found := by
    rw [lookup_countReferences] at found
    exact faithful.source id text found

theorem refer (id : AttrId) : (history.refer id (history.table.retain id)).Faithful origin := by
  apply faithful.countReferences
  · intro other different
    exact ⟨Function.update_of_ne different _ _, rfl⟩
  · intro entry found
    rcases faithful.counted id entry found with ⟨-, balance⟩
    rw [Function.update_self]
    refine ⟨Nat.le_add_left 1 _, fun free => ?_⟩
    have counts := balance free
    omega

theorem without {id : AttrId} {entry : NameEntry}
    (found : history.table.entries[id]? = some entry) (free : entry.pinned = false)
    {released : AttrId → Nat}
    (elsewhere : ∀ other, other ≠ id → released other = history.released other) :
    (History.mk (history.table.without id entry.text) history.given history.added
      released).Faithful origin where
  folds := faithful.folds
  inverse := faithful.inverse.without (lookup_eq_some_iff.mpr ⟨entry, found, rfl⟩)
  increasing := faithful.increasing
  given_below := faithful.given_below
  counted other present kept := by
    rw [entries_without] at kept
    split at kept
    · cases kept
    · rename_i different
      simpa only [elsewhere other different] using faithful.counted other present kept
  pinned pair member := pinned_without (faithful.pinned pair member) found free
  pinned_mem other present kept held := by
    rw [entries_without] at kept
    split at kept
    · cases kept
    · exact faithful.pinned_mem other present kept held
  source other text kept := by
    rw [lookup_without] at kept
    split at kept
    · cases kept
    · exact faithful.source other text kept

theorem release (id : AttrId) :
    Faithful origin
      { history with
        table := history.table.release id
        released := Function.update history.released id (history.released id + 1) } := by
  have elsewhere (other : AttrId) (different : other ≠ id) :
      Function.update history.released id (history.released id + 1) other =
        history.released other :=
    Function.update_of_ne different _ _
  rcases history.table.release_cases id with
    ⟨held, same⟩ | ⟨entry, found, free, ⟨-, same⟩ | ⟨several, same⟩⟩
  · rw [same]
    -- only the tally of an id changes that has no name or a pinned one
    refine { faithful with counted := fun other entry found => ?_ }
    rcases faithful.counted other entry found with ⟨positive, balance⟩
    refine ⟨positive, fun free => ?_⟩
    have different : other ≠ id := by
      rintro rfl
      rw [held entry found] at free
      cases free
    simpa only [elsewhere other different] using balance free
  · rw [same]
    exact faithful.without found free elsewhere
  · rw [same]
    apply faithful.countReferences
    · intro other different
      exact ⟨rfl, elsewhere other different⟩
    · intro other again
      rw [found] at again
      rcases Option.some.inj again with rfl
      rcases faithful.counted id entry found with ⟨-, balance⟩
      have counts := balance free
      rw [Function.update_self]
      omega

theorem apply (operation : Operation) : (history.apply operation).Faithful origin := by
  rcases history.apply_cases operation with
    ⟨name, missing, same⟩ | ⟨id, same⟩ | ⟨id, same⟩ | same
  · rw [same]
    exact faithful.enter missing
  · rw [same]
    exact faithful.refer id
  · rw [same]
    exact faithful.release id
  · rwa [same]

theorem run (operations : List Operation) : (history.run operations).Faithful origin := by
  induction operations generalizing history with
  | nil => exact faithful
  | cons operation operations induction => exact induction (faithful.apply operation)

theorem fold_eq (name : String) : history.table.fold name = origin.fold name := by
  have folds := faithful.folds
  cases origin with
  | plain first =>
    have sensitive : history.table.foldsCase = false := folds
    simp [fold, sensitive, Origin.fold]
  | attributes =>
    have insensitive : history.table.foldsCase = true := folds
    simp [fold, insensitive, Origin.fold]

end Faithful

/-! ## Ids and names over time -/

/-- A step gives no number anew, and a name that stands behind an old number stood there before. -/
theorem lookup_of_apply (history : History) (operation : Operation) :
    history.table.next ≤ (history.apply operation).table.next ∧
      ∀ id text, id.number < history.table.next →
        (history.apply operation).table.lookup id = some text →
          history.table.lookup id = some text := by
  rcases history.apply_cases operation with
    ⟨name, missing, same⟩ | ⟨id, same⟩ | ⟨id, same⟩ | same
  · rw [same]
    refine ⟨Nat.le_succ _, fun id text old found => ?_⟩
    change (history.table.appended (history.table.fold name)).lookup id = some text at found
    rwa [lookup_appended, if_neg] at found
    rintro rfl
    exact Nat.lt_irrefl _ old
  · rw [same]
    refine ⟨Nat.le_refl _, fun other text _ found => ?_⟩
    change (history.table.countReferences id (· + 1)).lookup other = some text at found
    rwa [lookup_countReferences] at found
  · rw [same]
    rcases history.table.release_cases id with
      ⟨-, released⟩ | ⟨entry, -, -, ⟨-, released⟩ | ⟨-, released⟩⟩
    · rw [released]
      exact ⟨Nat.le_refl _, fun _ _ _ found => found⟩
    · rw [released]
      refine ⟨Nat.le_refl _, fun other text _ found => ?_⟩
      change (history.table.without id entry.text).lookup other = some text at found
      rw [lookup_without] at found
      split at found
      · cases found
      · exact found
    · rw [released]
      refine ⟨Nat.le_refl _, fun other text _ found => ?_⟩
      change (history.table.countReferences id (· - 1)).lookup other = some text at found
      rwa [lookup_countReferences] at found
  · rw [same]
    exact ⟨Nat.le_refl _, fun _ _ _ found => found⟩

theorem lookup_of_run (history : History) (operations : List Operation) {id : AttrId}
    {text : String} (old : id.number < history.table.next)
    (found : (history.run operations).table.lookup id = some text) :
    history.table.lookup id = some text := by
  induction operations generalizing history with
  | nil => exact found
  | cons operation operations induction =>
    rcases history.lookup_of_apply operation with ⟨nextLe, earlier⟩
    exact earlier id text old
      (induction (history.apply operation) (Nat.lt_of_lt_of_le old nextLe) found)

end History

/-! ## The names of a table -/

theorem Inverse.card_texts {names : NameTable} (inverse : names.Inverse) :
    names.texts.card = names.size := by
  have distinct : (names.entries.toList.map (·.2.text)).Nodup := by
    rw [List.nodup_iff_pairwise_ne, List.pairwise_map]
    apply names.entries.distinct_keys_toList.imp_of_mem
    intro left right leftMember rightMember different same
    have found := Std.ExtTreeMap.mem_toList_iff_getElem?_eq_some.mp leftMember
    have foundRight := Std.ExtTreeMap.mem_toList_iff_getElem?_eq_some.mp rightMember
    apply different
    rw [inverse.lookup_inj (lookup_eq_some_iff.mpr ⟨left.2, found, same⟩)
      (lookup_eq_some_iff.mpr ⟨right.2, foundRight, rfl⟩)]
    exact Std.ReflCmp.compare_self
  rw [texts, List.toFinset_card_of_nodup distinct, List.length_map,
    Std.ExtTreeMap.length_toList, size]

namespace History

/-- The table and its ids are in order, now and in relation to whatever comes later. -/
structure Regular (origin : Origin) (history : History) : Prop where
  query_iff : ∀ name id,
    history.table.query name = some id ↔ history.table.lookup id = some (origin.fold name)
  size_eq : ∃ present : Finset String, history.table.size = present.card ∧
    ∀ text, text ∈ present ↔ ∃ id, history.table.lookup id = some text
  counted : ∀ id entry, history.table.entry? id = some entry →
    1 ≤ entry.references ∧
      ((id, entry.text) ∉ origin.pinned →
        entry.references + history.released id = 1 + history.added id)
  increasing : history.given.Pairwise fun later earlier => earlier.number < later.number
  source : ∀ id text, history.table.lookup id = some text →
    id ∈ history.given ∨ (id, text) ∈ origin.pinned
  one_name : ∀ id text later other, history.table.lookup id = some text →
    (history.run later).table.lookup id = some other → other = text
  pinned : ∀ pair ∈ origin.pinned, history.table.lookup pair.1 = some pair.2
  exhausted : ∀ name reason, (history.table.tryAdd name).1 = .error reason ↔
    history.table.query name = none ∧ lastNumber ≤ history.table.next ∧
      reason.count = history.table.size
  stops : ∀ name reason,
    history.table.add name = .error reason ↔ (history.table.tryAdd name).1 = .error reason
  refused : ∀ name reason, (history.table.tryAdd name).1 = .error reason →
    (history.table.tryAdd name).2 = history.table ∧ history.apply (.tryAdd name) = history ∧
      history.apply (.add name) = history

/-- After any operations on a new table its names, counts and ids are in order. -/
theorem names_in_order (origin : Origin) (operations : List Operation) :
    ((start origin).run operations).Regular origin := by
  have faithful := (faithful_start origin).run operations
  constructor
  · intro name id
    rw [← faithful.fold_eq]
    exact faithful.inverse.query_eq_some_iff
  · exact ⟨_, faithful.inverse.card_texts.symm, fun text => mem_texts⟩
  · intro id entry found
    rcases faithful.counted id entry found with ⟨positive, balance⟩
    refine ⟨positive, fun unpinned => balance ?_⟩
    rw [Bool.eq_false_iff]
    exact fun held => unpinned (faithful.pinned_mem id entry found held)
  · exact faithful.increasing
  · exact faithful.source
  · intro id text later other found foundLater
    have below := faithful.inverse.below id text found
    have earlier := lookup_of_run _ later below foundLater
    rw [found] at earlier
    exact (Option.some.inj earlier).symm
  · intro pair member
    rcases faithful.pinned pair member with ⟨references, found⟩
    exact lookup_eq_some_iff.mpr ⟨_, found, rfl⟩
  · exact fun name reason => tryAdd_eq_error_iff
  · exact fun name reason => add_eq_error_iff
  · intro name reason failed
    have same := tryAdd_refused failed
    have stays := apply_refused _ failed
    exact ⟨same, stays, (add_step _ name).trans stays⟩

-- a name that comes back has a new id
example : ((start (.plain 5)).run [.add "a", .release ⟨5⟩, .add "a"]).given = [⟨6⟩, ⟨5⟩] := by
  decide +kernel

end History
end RecordGraph.NameTable
