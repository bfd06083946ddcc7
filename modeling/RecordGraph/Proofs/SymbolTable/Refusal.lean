import RecordGraph.Proofs.Path.Refusal
import RecordGraph.Proofs.SymbolTable.Agreement

/-!
# Refused paths

A path behind a key that is bound can fail at any later index, at the attribute and at its end. It
never changes the bindings then. The arena keeps what was made before the failure: the room that was
made at an index, and the template if it was put at one. Where neither was made, the arena is as it
was but for names.
-/

namespace RecordGraph

namespace SymbolTable

open RecordGraph.Path

section

variable {table : SymbolTable} {arena : Arena} {path key : String} {place : Path.Cursor}
  {existing : NodeId}
  (read : identifier table arena (inner table arena) (.ofText path) = .ok key place)
  (bound : table.lookup key = some existing)

include read bound

/-- A refused path changes no binding, and what following its indices keeps it keeps. -/
theorem replace_of_refused {template : Option NodeId} {create : Bool}
    (refused : (table.replace arena path template create).result = none) :
    (table.replace arena path template create).table = table ∧
      ∀ holds : Arena → Prop, holds arena →
        (buildIndices table create template existing).Ends holds ⟨place, arena⟩ →
          (∀ name arena, holds arena → holds (internAttr name arena).2) →
            holds (table.replace arena path template create).arena := by
  unfold replace build at refused ⊢
  by_cases indirect : beginsIndirection path.toList = true
  · simp only [indirect, ↓reduceIte]
    cases Path.resolve table arena path with
    | ok target => exact ⟨rfl, fun _ begins _ _ => begins⟩
    | error failure => exact ⟨rfl, fun _ begins _ _ => begins⟩
  · simp only [indirect] at refused ⊢
    have ends (holds : Arena → Prop) (begins : holds arena)
        (indexed : (buildIndices table create template existing).Ends holds ⟨place, arena⟩)
        (interned : ∀ name arena, holds arena → holds (internAttr name arena).2) :=
      ends_buildPath read bound begins indexed interned
    unfold Builder.Ends at ends
    cases ran : buildPath table create template ⟨.ofText path, arena⟩ with
    | error failure later =>
      rw [ran] at ends
      exact ⟨rfl, ends⟩
    | ok result later =>
      rw [ran] at ends refused
      have settled : ∃ attr, result = (⟨none, attr⟩, none) := by
        unfold buildPath at ran
        rcases bind_eq_ok_iff.mp ran with ⟨⟨node, pending⟩, middle, primed, ran⟩
        rcases bind_eq_ok_iff.mp ran with ⟨attr, _, -, ⟨⟩⟩
        have none : node = none := by
          cases pending with
          | none => exact refused
          | some binding => exact refused
        rw [none, (pending_of_bound read bound primed).1 none]
        exact ⟨attr, rfl⟩
      rcases settled with ⟨attr, rfl⟩
      exact ⟨rfl, ends⟩

theorem names_of_refused {template : Option NodeId} {create : Bool}
    (idle : Idle table arena template create existing place)
    (refused : (table.replace arena path template create).result = none) :
    ∃ names, (table.replace arena path template create).arena = { arena with names } := by
  have begins : ∃ names, arena = { arena with names } := ⟨arena.names, rfl⟩
  apply (replace_of_refused read bound refused).2
    (fun later => ∃ names, later = { arena with names }) begins
    ((stays_buildIndices idle).ends begins)
  rintro name later ⟨names, same⟩
  rcases names_internAttr name later with ⟨more, interned⟩
  exact ⟨more, by rw [interned, same]⟩

theorem enriched_of_refused {create : Bool} (direct : table.registry.Direct)
    {holds : NodeId → Nat} (steady : arena.Steady [] holds)
    (refused : (table.replace arena path none create).result = none) :
    arena.Enriched (table.replace arena path none create).arena :=
  have begins : Gained arena holds arena := ⟨.refl arena, steady⟩
  ((replace_of_refused read bound refused).2 (Gained arena holds) begins
    ((gained_buildIndices direct create existing).ends begins) fun name later gained =>
      ⟨gained.enriched.trans (enriched_internAttr name later),
        (settles_internAttr name later holds gained.steady).1⟩).enriched

theorem gap_of_primary (strict : table.robust = false) (named : key ≠ "") {finish : Path.Cursor}
    (ran : primary table arena (inner table arena) (.ofText path) = .ok none finish) :
    ∃ gap behind, gap? table arena place.rest existing place = .ok (some gap) behind := by
  unfold primary at ran
  rw [bind_of_ok read, if_neg named, bound] at ran
  rcases bind_eq_ok_iff.mp ran with ⟨_, _, ⟨⟩, ran⟩
  exact gap_of_indices strict ran

omit read bound in
theorem idle_of_gap {gap : NodeId × Nat} {behind : Path.Cursor} {later : SymbolTable}
    {grown : Arena} (richer : Richer table arena later grown)
    (bare : ∀ {parent index}, arena.child? parent index = none → grown.child? parent index = none)
    (missing : gap? table arena place.rest existing place = .ok (some gap) behind)
    (roomless : Roomless table arena place.rest existing place) (template : Option NodeId) :
    Idle later grown template true existing place := by
  have again := gap?_richer richer bare missing
  refine ⟨fun _ parent index finish met => ?_, fun _ _ node finish => indices_of_gap again⟩
  rw [again] at met
  cases met
  exact roomless _ _ _ missing

/-- Storing a value at a path that is refused changes no binding. If no room may be made along the
path, every node is as it was. -/
theorem set_of_refused (strict : table.robust = false) (named : key ≠ "")
    (direct : table.registry.Direct) (wellFormed : arena.WellFormed) {value : Value} {create : Bool}
    (refused : (table.set arena path value create).result = none) :
    (table.set arena path value create).table = table ∧
      ((create = true → Roomless table arena place.rest existing place) →
        ∀ id, arena.contains id = true →
          (table.set arena path value create).arena.live? id = arena.live? id) := by
  cases ran : table.destination arena (.ofText path) with
  | error failure finish =>
    have ran : (table.destination arena).run (.ofText path) = .error failure finish := ran
    rw [set, ran]
    exact ⟨rfl, fun _ _ _ => rfl⟩
  | ok target finish =>
    rcases target with ⟨node, name⟩
    rcases destination_eq_ok_iff.mp ran with ⟨behind, primed, -, -⟩
    by_cases built : node = none ∧ create = true ∧
      ∃ attr, (destinationAttr arena name true).1 = some attr
    · rcases built with ⟨rfl, rfl, attr, attributed⟩
      rcases set_of_missing direct value ran attributed with ⟨leaf, childless, -, same⟩
      rcases @names_destinationAttr arena name true with ⟨names, interned⟩
      have enriched := enriched_destinationAttr arena name
      rw [interned] at enriched same
      have wellFormedNamed : ({ arena with names } : Arena).WellFormed :=
        ⟨wellFormed.free_nodup, wellFormed.mem_free, wellFormed.live_eq⟩
      have placed := Arena.placed_alloc wellFormedNamed childless
      have grown := enriched.trans (.alloc wellFormedNamed leaf)
      generalize ({ arena with names } : Arena).alloc leaf = stored at same placed grown
      have richer : Richer table arena table stored.2 := ⟨rfl, rfl, id, grown⟩
      have readAgain :=
        persistsAt_identifier richer (persistsAt_inner richer) (.nil table) _ _ read named
      rw [Cursor.followedBy_nil, Cursor.followedBy_nil] at readAgain
      rw [same] at refused ⊢
      have refusedThere : (table.replace stored.2 path (some stored.1) true).result = none :=
        refused
      refine ⟨(replace_of_refused readAgain bound refusedThere).1, fun roomless id live => ?_⟩
      rcases gap_of_primary read bound strict named primed with ⟨gap, _, missing⟩
      have bare {parent : NodeId} {index : Nat} (free : arena.child? parent index = none) :
          stored.2.child? parent index = none :=
        (placed.child?_eq childless parent index).trans free
      have idle := idle_of_gap richer bare missing (roomless rfl) (some stored.1)
      rcases names_of_refused readAgain bound idle refusedThere with ⟨more, left⟩
      have different : id ≠ stored.1 := by
        rintro rfl
        have stale : arena.live? stored.1 = none := placed.live?_before
        rw [Arena.contains, stale] at live
        cases live
      have leafThere : (table.replace stored.2 path (some stored.1) true).arena.live? stored.1 =
          some (leaf, 0) := by
        rw [left]
        exact placed.live?_same
      calc
        ((table.replace stored.2 path (some stored.1) true).arena.releaseIfUnowned
            stored.1).live? id
          = (table.replace stored.2 path (some stored.1) true).arena.live? id :=
            Arena.live?_releaseIfUnowned_leaf leafThere childless different
        _ = stored.2.live? id := by rw [left]; rfl
        _ = arena.live? id := placed.live?_other different
    · have readSame : (table.destination arena).run (.ofText path) = .ok (node, name) finish := ran
      rcases @names_destinationAttr arena name create with ⟨names, interned⟩
      unfold set at refused ⊢
      simp only [readSame] at refused ⊢
      generalize attributed : destinationAttr arena name create = given at refused interned ⊢
      rcases given with ⟨attr, later⟩
      cases node with
      | some node => cases attr <;> cases refused
      | none =>
        cases attr with
        | none => exact ⟨rfl, fun _ _ _ => by rw [interned]; rfl⟩
        | some attr =>
          cases create with
          | true => exact absurd ⟨rfl, rfl, attr, by rw [attributed]⟩ built
          | false => exact ⟨rfl, fun _ _ _ => by rw [interned]; rfl⟩

end

/-- A refused path behind a bound key changes no binding. If nothing is made along its indices, the
arena is as it was but for names. Without a template nothing is ever taken away, and a value that
cannot be stored leaves every node as it was unless room was made for it. -/
theorem refused_leaves_intact {table : SymbolTable} {arena : Arena} {path key : String}
    {place : Path.Cursor} {existing : NodeId} (strict : table.robust = false)
    (read : identifier table arena (inner table arena) (.ofText path) = .ok key place)
    (named : key ≠ "") (bound : table.lookup key = some existing) :
    (∀ template create,
      let outcome := table.replace arena path template create
      outcome.result = none → outcome.table = table ∧
        (Idle table arena template create existing place →
          ∃ names, outcome.arena = { arena with names })) ∧
    (table.registry.Direct → ∀ holds, arena.Steady [] holds →
      (∀ create,
        let outcome := table.replace arena path none create
        outcome.result = none → arena.Enriched outcome.arena) ∧
      ∀ value create,
        let outcome := table.set arena path value create
        outcome.result = none → outcome.table = table ∧
          ((create = true → Roomless table arena place.rest existing place) →
            ∀ id, arena.contains id = true → outcome.arena.live? id = arena.live? id)) := by
  constructor
  · intro template create outcome refused
    exact ⟨(replace_of_refused read bound refused).1, fun idle =>
      names_of_refused read bound idle refused⟩
  · intro direct holds steady
    constructor
    · intro create outcome refused
      exact enriched_of_refused read bound direct steady refused
    · intro value create outcome refused
      exact set_of_refused read bound strict named direct steady.wellFormed refused

def keyed : SymbolTable × Arena :=
  (empty "main").define Workspace.sample.arena "a" ⟨0, 0⟩

theorem balanced_keyed : Workspace.Balanced ⟨keyed.2, [keyed.1]⟩ fun _ => 0 := by
  have issued : Workspace.sample.arena.Issued ⟨0, 0⟩ := Arena.issued_of_contains (by decide +kernel)
  have kept : Workspace.Balanced (Workspace.sample.onTable 0 fun table arena =>
      table.define arena "a" ⟨0, 0⟩) (fun _ => 0) :=
    (Workspace.balanced_onTable Workspace.balanced_sample Workspace.allocates_sample
      fun others table sound => sound.define "a" issued).1
  exact kept

/-- An index beyond the bound on child lists is refused before anything is made. -/
theorem refused_leaves_intact_beyond :
    keyed.1.robust = false ∧ "a" ≠ "" ∧ keyed.1.lookup "a" = some ⟨0, 0⟩ ∧
      identifier keyed.1 keyed.2 (inner keyed.1 keyed.2) (.ofText "a[70000].note") =
        .ok "a" ⟨1, "[70000].note".toList⟩ ∧
      (keyed.1.replace keyed.2 "a[70000].note" none true).result = none ∧
      (keyed.1.replace keyed.2 "a[70000].note" none true).table = keyed.1 ∧
      ∃ names, (keyed.1.replace keyed.2 "a[70000].note" none true).arena =
        { keyed.2 with names } := by
  have strict : keyed.1.robust = false := by decide +kernel
  have bound : keyed.1.lookup "a" = some ⟨0, 0⟩ := by decide +kernel
  have read : identifier keyed.1 keyed.2 (inner keyed.1 keyed.2) (.ofText "a[70000].note") =
      .ok "a" ⟨1, "[70000].note".toList⟩ := rfl
  have refused : (keyed.1.replace keyed.2 "a[70000].note" none true).result = none := by
    decide +kernel
  have missing : gap? keyed.1 keyed.2 "[70000].note".toList ⟨0, 0⟩ ⟨1, "[70000].note".toList⟩ =
      .ok (some (⟨0, 0⟩, 70000)) ⟨7, "].note".toList⟩ := rfl
  have idle : Idle keyed.1 keyed.2 none true ⟨0, 0⟩ ⟨1, "[70000].note".toList⟩ := by
    refine ⟨fun _ parent index finish met => ?_, nofun⟩
    cases missing.symm.trans met
    decide
  have intact := (refused_leaves_intact strict read (by decide) bound).1 none true refused
  exact ⟨strict, by decide, bound, read, refused, intact.1, intact.2 idle⟩

/-- What a path has made by the time it is refused for the text behind it stays: the room at an
index, and a template in the place of the child that stood there, which may be gone then. -/
theorem refused_leaves_room :
    let roomy := (keyed.1.replace keyed.2 "a[0] x" none true).arena
    let stored := roomy.alloc (.ofKind "t" .int)
    let outcome := keyed.1.add stored.2 "a[0] x" stored.1
    keyed.1.robust = false ∧ keyed.1.lookup "a" = some ⟨0, 0⟩ ∧
      (keyed.1.replace keyed.2 "a[0] x" none true).result = none ∧
      keyed.2.children ⟨0, 0⟩ = #[] ∧ roomy.children ⟨0, 0⟩ = #[⟨1, 0⟩] ∧
      outcome.result = none ∧ stored.2.contains ⟨1, 0⟩ = true ∧
      outcome.arena.contains ⟨1, 0⟩ = false :=
  ⟨by decide +kernel, by decide +kernel, by decide +kernel, by decide +kernel, by decide +kernel,
    by decide +kernel, by decide +kernel, by decide +kernel⟩

end SymbolTable
end RecordGraph
