import RecordGraph.Proofs.Arena.AttrChanges

/-!
# Histories of attributes

The attributes of nodes are stored, overwritten, erased and cleared, and names are interned in
between. Whatever the order, each list records the changes of its own node: two spellings of a name
meet in one attribute, two names never do, and the attributes stand in the order in which they came.
-/

namespace RecordGraph
open NameTable

structure AttrHistory where
  arena : Arena
  changes : NodeId → List AttrChange

namespace AttrHistory

/-- The attributes that are there count as stored one after the other. -/
def start (arena : Arena) : AttrHistory where
  arena
  changes id := arena.names.stores (((arena.node? id).map (·.entries)).getD [])

/-- The history after an action. Only a change that takes place is recorded. -/
def apply (history : AttrHistory) (action : AttrAction) : AttrHistory where
  arena := history.arena.act action
  changes :=
    match action.change? with
    | some (id, change) =>
      if history.arena.accepts id change then
        Function.update history.changes id (change :: history.changes id)
      else history.changes
    | none => history.changes

def run (history : AttrHistory) (actions : List AttrAction) : AttrHistory :=
  actions.foldl apply history

end AttrHistory

/-! ## Arenas to begin with -/

namespace Arena

structure AttrsOrderly (arena : Arena) : Prop extends arena.AttrsSound where
  known : ∀ id node, arena.node? id = some node → ∀ entry ∈ node.entries,
    ∃ key, arena.names.lookup entry.1 = some key

theorem attrsOrderly_empty : Arena.empty.AttrsOrderly where
  toAttrsSound := attrsSound_empty
  known id node found := by simp [node?, live?, empty] at found

theorem AttrsOrderly.alloc {arena : Arena} (orderly : arena.AttrsOrderly)
    (wellFormed : arena.WellFormed) {node : Node} (childless : node.childArray = #[])
    (bare : node.attrs = none) :
    (arena.alloc node).2.AttrsOrderly where
  toAttrsSound := orderly.toAttrsSound.alloc wellFormed (Node.attrsSound_of_missing bare)
  known id other found := by
    have placed := placed_alloc wellFormed childless
    by_cases new : id = (arena.alloc node).1
    · rw [new, node?, placed.live?_same] at found
      cases found
      simp [Node.entries, bare]
    · rw [node?, placed.live?_other new] at found
      rw [placed.names]
      exact orderly.known id other found

end Arena

/-! ## Whole histories -/

namespace AttrHistory

structure Faithful (history : AttrHistory) : Prop where
  sound : history.arena.AttrsSound
  records : ∀ id node, history.arena.node? id = some node →
    history.arena.names.Records node.entries (history.changes id)
  stale : ∀ id, history.arena.contains id = false → history.changes id = []

theorem faithful_start {arena : Arena} (orderly : arena.AttrsOrderly) :
    (start arena).Faithful where
  sound := orderly.toAttrsSound
  records id node found := by
    have changes : (start arena).changes id = arena.names.stores node.entries := by
      change arena.names.stores (((arena.node? id).map (·.entries)).getD []) = _
      rw [show arena.node? id = some node from found]
      rfl
    rw [changes]
    exact orderly.names.records_stores (orderly.known id node found)
      (orderly.toAttrsSound.node found).nodup_entries
  stale id gone := by
    have missing : arena.node? id = none := by
      simpa [start, Arena.contains, Arena.node?] using gone
    simp [start, missing, stores]

namespace Faithful

variable {history : AttrHistory} (faithful : history.Faithful)

include faithful

theorem changed {later : Arena} {id : NodeId} {change : AttrChange}
    (step : history.arena.Changed later id change) (live : history.arena.contains id = true) :
    Faithful ⟨later, Function.update history.changes id (change :: history.changes id)⟩ where
  sound := step.sound
  records other node found := by
    dsimp only at found ⊢
    by_cases here : other = id
    · subst here
      rw [Function.update_self]
      obtain ⟨before, foundBefore⟩ : ∃ before, history.arena.node? other = some before := by
        simpa [Arena.contains, Arena.node?, Option.isSome_iff_exists] using live
      exact step.records before node _ foundBefore found (faithful.records other before foundBefore)
    · rw [Function.update_of_ne here]
      rw [Arena.node?, step.other other here] at found
      exact (faithful.records other node found).keep step.keeps
  stale other gone := by
    have elsewhere : other ≠ id := by
      rintro rfl
      rw [step.contains, live] at gone
      cases gone
    rw [Arena.contains, step.other other elsewhere] at gone
    dsimp only
    rw [Function.update_of_ne elsewhere]
    exact faithful.stale other gone

theorem apply (action : AttrAction) : (history.apply action).Faithful := by
  rcases faithful.sound.act_cases action with
    ⟨id, change, made, accepted, step⟩ | ⟨id, change, made, refused, same⟩ |
      ⟨unmade, names, same, namesSound, keeps⟩
  · have live := (Bool.and_eq_true_iff.mp accepted).1
    simpa [AttrHistory.apply, made, accepted] using faithful.changed step live
  · simpa [AttrHistory.apply, made, refused, same] using faithful
  · rw [AttrHistory.apply, unmade, same]
    exact ⟨⟨namesSound, faithful.sound.nodes⟩,
      fun id node found => (faithful.records id node found).keep keeps, faithful.stale⟩

theorem run (actions : List AttrAction) : (history.run actions).Faithful := by
  induction actions generalizing history with
  | nil => exact faithful
  | cons action actions induction => exact induction (faithful.apply action)

theorem contains_run (actions : List AttrAction) (id : NodeId) :
    (history.run actions).arena.contains id = history.arena.contains id := by
  induction actions generalizing history with
  | nil => rfl
  | cons action actions induction =>
    exact (induction (faithful.apply action)).trans (faithful.sound.contains_act action id)

theorem attr?_eq (id : NodeId) (name : String) :
    history.arena.attr? id name = (standing name (history.changes id)).map (·.value) := by
  rw [Arena.attr?]
  cases found : history.arena.node? id with
  | none =>
    have gone : history.arena.contains id = false := by
      simpa [Arena.contains, Arena.node?] using found
    rw [faithful.stale id gone]
    simp [Arena.attrById?, found, standing]
  | some node =>
    have records := faithful.records id node found
    rw [node.entries_eq] at records
    have listSound := (faithful.sound.node found).getD
    rw [← records.find?_eq faithful.sound.names listSound]
    congr 1
    funext attr
    rw [Arena.attrById?, found, Option.bind_some, node.attr?_eq]

end Faithful

/-- The attributes of all nodes are in order, also with regard to what happens next. -/
structure Regular (history : AttrHistory) : Prop where
  nodup : ∀ id node, history.arena.node? id = some node → (node.entries.map (·.1)).Nodup
  attr?_eq : ∀ id name,
    history.arena.attr? id name = (standing name (history.changes id)).map (·.value)
  ordered : ∀ id node, history.arena.node? id = some node →
    history.arena.names.Records node.entries (history.changes id)
  apart : ∀ action other, action.change?.map (·.1) ≠ some other →
    (history.arena.act action).live? other = history.arena.live? other

/-- Whatever is done to the attributes of an arena, each node has those that were stored and not
removed since, each of them once, with the last value, and in the order in which they came. -/
theorem attributes_in_order (arena : Arena) (orderly : arena.AttrsOrderly)
    (actions : List AttrAction) :
    ((start arena).run actions).Regular ∧
      ∀ id, ((start arena).run actions).arena.contains id = arena.contains id := by
  have faithful := (faithful_start orderly).run actions
  have regular : ((start arena).run actions).Regular :=
    { nodup := fun _ _ found => (faithful.sound.node found).nodup_entries
      attr?_eq := faithful.attr?_eq
      ordered := faithful.records
      apart := fun _ _ apart => faithful.sound.live?_act apart }
  exact ⟨regular, (faithful_start orderly).contains_run actions⟩

def twoNodes : Arena :=
  ((Arena.empty.allocKind "first" .base).2.allocKind "second" .base).2

def spellings : List AttrAction :=
  [.edit ⟨0, 0⟩ (.store "x" (.int 1)) false, .edit ⟨0, 0⟩ (.store "" (.int 2)) false,
    .edit ⟨1, 0⟩ (.store "x" (.int 9)) false, .edit ⟨0, 0⟩ (.store "y" (.int 3)) false,
    .edit ⟨0, 0⟩ (.erase "value") false, .edit ⟨0, 0⟩ (.overwrite "X" (.int 4)) false,
    .edit ⟨0, 0⟩ (.store "Value" (.int 5)) false]

/-- A name that comes back stands last. -/
theorem attributes_in_order_spellings :
    twoNodes.AttrsOrderly ∧ ((start twoNodes).run spellings).Regular ∧
      ((start twoNodes).run spellings).arena.attr? ⟨0, 0⟩ "x" = some (.int 4) ∧
      ((start twoNodes).run spellings).arena.attr? ⟨0, 0⟩ "" = some (.int 5) ∧
      ((start twoNodes).run spellings).arena.attr? ⟨1, 0⟩ "X" = some (.int 9) ∧
      standing "VALUE" (((start twoNodes).run spellings).changes ⟨0, 0⟩) = some ⟨5, .int 5⟩ := by
  have orderly : twoNodes.AttrsOrderly := by
    have wellFormed := Arena.orderly_empty.wellFormed
    exact (Arena.attrsOrderly_empty.alloc wellFormed rfl rfl).alloc
      (Arena.placed_alloc wellFormed rfl).wellFormed rfl rfl
  have regular := (attributes_in_order twoNodes orderly spellings).1
  refine ⟨orderly, regular, ?_, ?_, ?_, by decide +kernel⟩
  · rw [regular.attr?_eq]
    decide +kernel
  · rw [regular.attr?_eq]
    decide +kernel
  · rw [regular.attr?_eq]
    decide +kernel

end AttrHistory
end RecordGraph
