import RecordGraph.Proofs.Arena.Attrs
import RecordGraph.Proofs.AttrList.Standing

/-!
# Changes of attributes

An action on the attributes of an arena changes the list of one node, is refused, or adds to the
names. A list that records what was done to it before goes on to record the change, whatever names
are interned for it, and no other node is touched.
-/

namespace RecordGraph
open NameTable

/-! ## One node -/

namespace Node

theorem entries_eq (node : Node) : node.entries = (node.attrs.getD .empty).entries := by
  unfold entries
  cases node.attrs with
  | none => exact AttrList.entries_empty.symm
  | some list => rfl

theorem attr?_eq (node : Node) (id : AttrId) :
    node.attr? id = (node.attrs.getD .empty).find? id := by
  unfold attr?
  cases node.attrs with
  | none => exact (AttrList.find?_empty id).symm
  | some list => rfl

theorem entries_ensureAttrs (node : Node) : node.ensureAttrs.entries = node.entries :=
  node.entries_eq.symm

/-- A list that is missing is read as an empty one, so a change that leaves nothing of that one may
as well be made. -/
theorem entries_modifyAttrs (node : Node) (create : Bool) (change : AttrList → AttrList)
    (nothing : (change .empty).entries = []) :
    (node.modifyAttrs create change).entries = (change (node.attrs.getD .empty)).entries := by
  unfold modifyAttrs entries
  cases missing : node.attrs with
  | some list => rfl
  | none =>
    cases create with
    | true => rfl
    | false => simp [missing, nothing]

theorem eraseAttr_eq (node : Node) (id : AttrId) (create : Bool) :
    node.eraseAttr id create = node.modifyAttrs create (·.erase id) := by
  unfold eraseAttr modifyAttrs
  cases missing : node.attrs with
  | some list => rfl
  | none => simp [ensureAttrs, missing, AttrList.erase, AttrList.empty]

theorem AttrsSound.modifyAttrs {node : Node} (sound : node.AttrsSound) (create : Bool)
    {change : AttrList → AttrList} (keeps : ∀ list, list.Sound → (change list).Sound) :
    (node.modifyAttrs create change).AttrsSound := by
  unfold Node.modifyAttrs
  split
  · rename_i list present
    intro changed same
    cases same
    exact keeps list (sound list present)
  · split
    · intro changed same
      cases same
      exact keeps _ AttrList.sound_empty
    · exact sound

end Node

namespace Arena

/-! ## One change -/

structure Changed (arena later : Arena) (id : NodeId) (change : AttrChange) : Prop where
  sound : later.AttrsSound
  keeps : arena.names.Keeps later.names
  other : ∀ other, other ≠ id → later.live? other = arena.live? other
  contains : later.contains id = arena.contains id
  records : ∀ before after changes, arena.node? id = some before → later.node? id = some after →
    arena.names.Records before.entries changes →
      later.names.Records after.entries (change :: changes)

variable {arena : Arena} (sound : arena.AttrsSound)

include sound

theorem AttrsSound.changed_modifyNode {names : NameTable} (namesSound : names.Sound)
    (keeps : arena.names.Keeps names) (id : NodeId) {modify : Node → Node} {change : AttrChange}
    (keepsSound : ∀ node, node.AttrsSound → (modify node).AttrsSound)
    (records : ∀ node changes, node.AttrsSound → names.Records node.entries changes →
      names.Records (modify node).entries (change :: changes)) :
    arena.Changed (({ arena with names } : Arena).modifyNode id modify) id change where
  sound := by
    have named : ({ arena with names } : Arena).AttrsSound := ⟨namesSound, sound.nodes⟩
    exact named.modifyNode id keepsSound
  keeps := keeps
  other other different := by
    rw [live?_modifyNode, if_neg different]
    rfl
  contains := by
    rw [contains, live?_modifyNode, if_pos rfl, Option.isSome_map]
    rfl
  records before after changes found foundAfter recorded := by
    rw [node?, live?_modifyNode, if_pos rfl] at foundAfter
    rcases Option.map_eq_some_iff.mp foundAfter with ⟨content, changed, rfl⟩
    rcases Option.map_eq_some_iff.mp changed with ⟨⟨node, owners⟩, live, rfl⟩
    have same : arena.live? id = some (node, owners) := live
    rw [node?, same] at found
    cases found
    exact records node changes (sound.nodes id node owners same) (recorded.keep keeps)

theorem AttrsSound.changed_self (id : NodeId) {change : AttrChange}
    (records : ∀ entries changes, arena.names.Records entries changes →
      arena.names.Records entries (change :: changes)) : arena.Changed arena id change where
  sound := sound
  keeps := .refl _
  other _ _ := rfl
  contains := rfl
  records before after changes found foundAfter recorded := by
    rw [found] at foundAfter
    cases foundAfter
    exact records _ _ recorded

theorem AttrsSound.changed_unknown (id : NodeId) (create : Bool) {change : AttrChange}
    (records : ∀ entries changes, arena.names.Records entries changes →
      arena.names.Records entries (change :: changes)) :
    arena.Changed (if create then arena.modifyNode id (·.ensureAttrs) else arena) id change := by
  split
  · refine sound.changed_modifyNode sound.names (.refl _) id
      (fun node nodeSound => nodeSound.ensureAttrs) fun node changes _ recorded => ?_
    rw [node.entries_ensureAttrs]
    exact records _ _ recorded
  · exact sound.changed_self id records

theorem AttrsSound.changed_changeAttrs {id : NodeId} {change : AttrChange}
    (accepted : arena.accepts id change = true) (create : Bool) :
    arena.Changed (arena.changeAttrs id create change) id change := by
  have live : arena.contains id = true := (Bool.and_eq_true_iff.mp accepted).1
  cases change with
  | store name value =>
    have fits : (arena.names.intern name).isOk = true := (Bool.and_eq_true_iff.mp accepted).2
    rw [changeAttrs, Arena.setAttr, if_pos live]
    cases interned : arena.names.intern name with
    | error exhausted =>
      rw [interned] at fits
      cases fits
    | ok result =>
      rcases result with ⟨attr, names⟩
      rcases sound.names.intern interned with ⟨namesSound, keeps⟩
      have found := namesSound.query_eq_some_iff.mp (query_of_interned interned)
      rw [namesSound.fold_eq_fold] at found
      refine sound.changed_modifyNode namesSound keeps id
        (fun node nodeSound => nodeSound.setAttr attr value)
        fun node changes nodeSound recorded => ?_
      rw [node.entries_eq] at recorded
      exact recorded.store namesSound nodeSound.getD found value
  | overwrite name value =>
    rw [changeAttrs, overwriteAttr]
    split
    · rename_i attr known
      rw [sound.names.query_eq_some_iff, sound.names.fold_eq_fold] at known
      refine sound.changed_modifyNode sound.names (.refl _) id
        (fun node nodeSound => nodeSound.modifyAttrs create fun _ listSound =>
          listSound.modify attr value) fun node changes nodeSound recorded => ?_
      have nothing : (AttrList.empty.modify attr value).entries = [] := by
        simp [AttrList.sound_empty.entries_modify]
      rw [node.entries_modifyAttrs create (·.modify attr value) nothing,
        nodeSound.getD.entries_modify, ← node.entries_eq]
      exact recorded.overwrite sound.names known value
    · rename_i missing
      exact sound.changed_unknown id create fun entries changes recorded =>
        recorded.congr (standing_overwrite_of_none
          (recorded.standing_eq_none sound.names missing) value)
  | erase name =>
    rw [changeAttrs, Arena.eraseAttr]
    split
    · rename_i attr known
      rw [sound.names.query_eq_some_iff, sound.names.fold_eq_fold] at known
      refine sound.changed_modifyNode sound.names (.refl _) id
        (fun node nodeSound => nodeSound.eraseAttr attr create)
        fun node changes nodeSound recorded => ?_
      have nothing : (AttrList.empty.erase attr).entries = [] := by
        simp [AttrList.sound_empty.entries_erase]
      rw [node.eraseAttr_eq, node.entries_modifyAttrs create (·.erase attr) nothing,
        nodeSound.getD.entries_erase, ← node.entries_eq]
      exact recorded.erase sound.names known
    · rename_i missing
      exact sound.changed_unknown id create fun entries changes recorded =>
        recorded.congr (standing_erase_of_none (recorded.standing_eq_none sound.names missing))
  | clear =>
    refine sound.changed_modifyNode sound.names (.refl _) id
      (fun node nodeSound => nodeSound.modifyAttrs create fun _ _ => AttrList.sound_empty)
      fun node changes nodeSound recorded => ?_
    rw [node.entries_modifyAttrs create (fun _ => .empty) AttrList.entries_empty,
      AttrList.entries_empty]
    exact records_clear

theorem AttrsSound.changed_takeAttrs (id : NodeId) :
    arena.Changed (arena.takeAttrs id).2 id .clear :=
  sound.changed_modifyNode sound.names (.refl _) id
    (fun _ _ => Node.attrsSound_of_missing rfl) fun _ _ _ _ => records_clear

omit sound in
theorem changeAttrs_of_refused {id : NodeId} {change : AttrChange}
    (refused : arena.accepts id change = false) (create : Bool) :
    arena.changeAttrs id create change = arena := by
  by_cases live : arena.contains id = true
  · cases change with
    | store name value =>
      simp only [accepts, live, Bool.true_and] at refused
      rw [changeAttrs, Arena.setAttr, if_pos live]
      cases interned : arena.names.intern name with
      | error exhausted => rfl
      | ok result =>
        rw [interned] at refused
        cases refused
    | overwrite name value => simp [accepts, live] at refused
    | erase name => simp [accepts, live] at refused
    | clear => simp [accepts, live] at refused
  · have stale : arena.live? id = none := by
      simpa [contains] using live
    have unchanged (modify : Node → Node) : arena.modifyNode id modify = arena :=
      modifyNode_of_stale stale modify
    cases change with
    | store name value => rw [changeAttrs, Arena.setAttr, if_neg live]
    | overwrite name value =>
      simp only [changeAttrs, overwriteAttr, unchanged, ite_self]
      split <;> rfl
    | erase name =>
      simp only [changeAttrs, Arena.eraseAttr, unchanged, ite_self]
      split <;> rfl
    | clear => exact unchanged _

theorem AttrsSound.act_cases (action : AttrAction) :
    (∃ id change, action.change? = some (id, change) ∧ arena.accepts id change = true ∧
        arena.Changed (arena.act action) id change) ∨
      (∃ id change, action.change? = some (id, change) ∧ arena.accepts id change = false ∧
        arena.act action = arena) ∨
      action.change? = none ∧ ∃ names, arena.act action = { arena with names } ∧ names.Sound ∧
        arena.names.Keeps names := by
  have same : ∃ names, arena = { arena with names } ∧ names.Sound ∧ arena.names.Keeps names :=
    ⟨arena.names, rfl, sound.names, .refl _⟩
  have retained (attr : AttrId) : (arena.names.retain attr).Sound ∧
      arena.names.Keeps (arena.names.retain attr) := by
    refine ⟨sound.names.countReferences attr _, rfl, fun id text found => ?_⟩
    rwa [NameTable.retain, lookup_countReferences]
  cases action with
  | edit id change create =>
    cases accepted : arena.accepts id change with
    | true => exact .inl ⟨id, change, rfl, accepted, sound.changed_changeAttrs accepted create⟩
    | false => exact .inr (.inl ⟨id, change, rfl, accepted, changeAttrs_of_refused accepted create⟩)
  | take id =>
    cases accepted : arena.accepts id .clear with
    | true => exact .inl ⟨id, .clear, rfl, accepted, sound.changed_takeAttrs id⟩
    | false =>
      have stale : arena.live? id = none := by
        simpa [accepts, contains] using accepted
      exact .inr (.inl ⟨id, .clear, rfl, accepted, modifyNode_of_stale stale _⟩)
  | add name =>
    refine .inr (.inr ⟨rfl, ?_⟩)
    cases known : arena.names.query name with
    | some id => exact ⟨_, by rw [act, NameTable.add_of_known known], retained id⟩
    | none =>
      by_cases room : arena.names.next < NameTable.lastNumber
      · exact ⟨_, by rw [act, NameTable.add_of_new known room],
          sound.names.appended known room, sound.names.keeps_appended _⟩
      · rw [act, NameTable.add_of_full known room]
        exact same
  | intern name =>
    refine .inr (.inr ⟨rfl, ?_⟩)
    rw [act]
    cases interned : arena.names.intern name with
    | error exhausted => exact same
    | ok result => exact ⟨result.2, rfl, sound.names.intern interned⟩
  | retain attr => exact .inr (.inr ⟨rfl, arena.names.retain attr, rfl, retained attr⟩)

theorem AttrsSound.contains_act (action : AttrAction) (id : NodeId) :
    (arena.act action).contains id = arena.contains id := by
  rcases sound.act_cases action with
    ⟨changed, change, -, -, step⟩ | ⟨-, -, -, -, same⟩ | ⟨-, names, same, -, -⟩
  · by_cases here : id = changed
    · rw [here, step.contains]
    · rw [contains, step.other id here, contains]
  · rw [same]
  · rw [same]
    rfl

theorem AttrsSound.live?_act {action : AttrAction} {other : NodeId}
    (apart : action.change?.map (·.1) ≠ some other) :
    (arena.act action).live? other = arena.live? other := by
  rcases sound.act_cases action with
    ⟨id, change, made, -, step⟩ | ⟨-, -, -, -, same⟩ | ⟨-, names, same, -, -⟩
  · refine step.other other ?_
    rintro rfl
    rw [made] at apart
    exact apart rfl
  · rw [same]
  · rw [same]
    rfl

end Arena
end RecordGraph
