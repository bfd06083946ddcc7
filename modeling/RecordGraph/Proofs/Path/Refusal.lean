import RecordGraph.Proofs.Arena.Leaf
import RecordGraph.Proofs.Path.Leaves
import RecordGraph.Proofs.Path.Parts
import RecordGraph.Proofs.Path.Persistence

/-!
# Paths that make nothing

A path that is asked to make way makes room at the first place along its indices where no child
stands. Up to there it only reads. So if there is no such place, or no room may be made at it, the
arena stays as it is until the template is put at the end of the indices.
-/

namespace RecordGraph.Path

open Builder (look)

namespace Builder

def Stays (builder : Builder α) (found : α → Cursor → Prop) (start : Progress) : Prop :=
  match builder start with
  | .ok result later => later.arena = start.arena ∧ found result later.cursor
  | .error _ later => later.arena = start.arena

namespace Stays

variable {start : Progress} {middle : α → Cursor → Prop} {found : β → Cursor → Prop}

theorem bind {builder : Builder α} {next : α → Builder β} (first : builder.Stays middle start)
    (rest : ∀ result cursor, middle result cursor →
      (next result).Stays found ⟨cursor, start.arena⟩) : (builder >>= next).Stays found start := by
  unfold Stays at first ⊢
  change match EStateM.bind builder next start with | .ok .. => _ | .error .. => _
  unfold EStateM.bind
  cases ran : builder start with
  | error failure later =>
    rw [ran] at first
    exact first
  | ok result later =>
    rcases later with ⟨cursor, arena⟩
    rw [ran] at first
    rcases first with ⟨rfl, good⟩
    exact rest result cursor good

theorem mono {builder : Builder β} {weaker : β → Cursor → Prop} (stays : builder.Stays found start)
    (weaken : ∀ result cursor, found result cursor → weaker result cursor) :
    builder.Stays weaker start := by
  unfold Stays at stays ⊢
  split at stays
  · exact ⟨stays.1, weaken _ _ stays.2⟩
  · exact stays

theorem pure {result : β} (holds : found result start.cursor) :
    (Pure.pure result : Builder β).Stays found start :=
  ⟨rfl, holds⟩

theorem throw (failure : Error) : (MonadExcept.throw failure : Builder β).Stays found start :=
  rfl

theorem get {next : Progress → Builder β} (rest : (next start).Stays found start) :
    (MonadState.get >>= next).Stays found start :=
  rest

theorem look (reader : Arena → Reader β) :
    (Builder.look reader).Stays
      (fun result cursor => reader start.arena start.cursor = .ok result cursor) start := by
  unfold Stays
  cases ran : Builder.look reader start with
  | ok result later =>
    rcases look_eq_ok_iff.mp ran with ⟨place, read, rfl⟩
    exact ⟨rfl, read⟩
  | error failure later =>
    unfold Builder.look at ran
    split at ran <;> cases ran
    rfl

theorem onFailure {builder : Builder β} {action : Arena → Arena}
    (stays : builder.Stays found start) (nothing : action start.arena = start.arena) :
    (builder.onFailure action).Stays found start := by
  unfold Stays at stays ⊢
  unfold Builder.onFailure
  cases ran : builder start with
  | ok result later =>
    rw [ran] at stays
    exact stays
  | error failure later =>
    rw [ran] at stays
    have same : later.arena = start.arena := stays
    simp only [same]
    exact nothing

end Stays

def Ends (builder : Builder α) (holds : Arena → Prop) (start : Progress) : Prop :=
  match builder start with
  | .ok _ later | .error _ later => holds later.arena

theorem Preserves.ends {builder : Builder α} {holds : Arena → Prop}
    (preserves : builder.Preserves holds) {start : Progress} (begins : holds start.arena) :
    builder.Ends holds start := by
  have ended := preserves start begins
  unfold Ends
  cases ran : builder start with
  | ok result later | error failure later =>
    rw [ran] at ended
    exact ended

theorem Stays.ends {builder : Builder α} {found : α → Cursor → Prop} {start : Progress}
    (stays : builder.Stays found start) {holds : Arena → Prop} (begins : holds start.arena) :
    builder.Ends holds start := by
  unfold Stays at stays
  unfold Ends
  cases ran : builder start with
  | ok result later =>
    rw [ran] at stays
    have same : later.arena = start.arena := stays.1
    change holds later.arena
    rwa [same]
  | error failure later =>
    rw [ran] at stays
    have same : later.arena = start.arena := stays
    change holds later.arena
    rwa [same]

theorem Ends.congr {builder other : Builder α} {holds : Arena → Prop} {start place : Progress}
    (ends : other.Ends holds place) (same : builder start = other place) :
    builder.Ends holds start := by
  unfold Ends at ends ⊢
  rwa [same]

theorem Ends.bind {builder : Builder α} {next : α → Builder β} {holds : Arena → Prop}
    {start : Progress} (first : builder.Ends holds start)
    (rest : ∀ result later, builder start = .ok result later → holds later.arena →
      (next result).Ends holds later) : (builder >>= next).Ends holds start := by
  unfold Ends at first ⊢
  cases ran : builder start with
  | ok result later =>
    rw [ran] at first
    rw [bind_of_ok ran]
    exact rest result later ran first
  | error failure later =>
    rw [ran] at first
    rwa [bind_of_error ran]

end Builder

open Builder (Stays)

/-- The first place along the indices behind a node at which no child stands. Nothing if children
stand at all of them, or if an index selects nothing. -/
def gap? (table : SymbolTable) (arena : Arena) :
    List Char → NodeId → Reader (Option (NodeId × Nat))
  | [], _ => return none
  | _ :: rounds, parent => do
    if (← Reader.peek) = some '[' then
      Reader.advance
      match ← indexValue table arena (inner table arena) with
      | none => return none
      | some index =>
        match arena.child? parent index with
        | none => return some (parent, index)
        | some child =>
          closeBracket table
          gap? table arena rounds child
    else return none

/-- No room may be made along the indices: children stand at all of them, or the first one without
a child is beyond the bound on child lists. -/
def Roomless (table : SymbolTable) (arena : Arena) (rounds : List Char) (origin : NodeId)
    (place : Cursor) : Prop :=
  ∀ parent index finish, gap? table arena rounds origin place = .ok (some (parent, index)) finish →
    DepthLimit.padding.allows (index + 1) = false

section

variable {table : SymbolTable} {arena : Arena} {create : Bool} {template : Option NodeId}

variable {round : Char} {rounds : List Char} {parent : NodeId} {index : Nat} {start place : Cursor}

theorem gap?_of_missing (bracket : start.rest.head? = some '[')
    (read : indexValue table arena (inner table arena) start.next = .ok (some index) place)
    (missing : arena.child? parent index = none) :
    gap? table arena (round :: rounds) parent start = .ok (some (parent, index)) place := by
  unfold gap?
  refine bind_eq_ok_iff.mpr ⟨_, _, rfl, ?_⟩
  rw [if_pos bracket]
  refine bind_eq_ok_iff.mpr ⟨_, _, rfl, bind_eq_ok_iff.mpr ⟨_, _, read, ?_⟩⟩
  simp only [missing]
  rfl

theorem gap?_of_child {child : NodeId} {closed : Cursor} (bracket : start.rest.head? = some '[')
    (read : indexValue table arena (inner table arena) start.next = .ok (some index) place)
    (stands : arena.child? parent index = some child)
    (ended : closeBracket table place = .ok () closed) {result : Option (NodeId × Nat)}
    {finish : Cursor} (onward : gap? table arena rounds child closed = .ok result finish) :
    gap? table arena (round :: rounds) parent start = .ok result finish := by
  unfold gap?
  refine bind_eq_ok_iff.mpr ⟨_, _, rfl, ?_⟩
  rw [if_pos bracket]
  refine bind_eq_ok_iff.mpr ⟨_, _, rfl, bind_eq_ok_iff.mpr ⟨_, _, read, ?_⟩⟩
  simp only [stands]
  exact bind_eq_ok_iff.mpr ⟨_, _, ended, onward⟩

/-! ## Reading on without making room -/

theorem indices_cons {current : Option NodeId} {index : Option Nat} {closed : Cursor}
    (bracket : start.rest.head? = some '[')
    (read : indexValue table arena (inner table arena) start.next = .ok index place)
    (ended : closeBracket table place = .ok () closed) :
    indices table arena (inner table arena) (round :: rounds) current start =
      indices table arena (inner table arena) rounds
        (current.bind fun parent => index.bind (arena.child? parent)) closed :=
  (indices_cons_eq bracket).trans (bind_of_ok (closedIndex_eq_ok_iff.mpr ⟨place, read, ended⟩))

theorem stays_childAt {cursor : Cursor}
    (roomless : create = true → arena.child? parent index = none →
      DepthLimit.padding.allows (index + 1) = false) :
    (childAt table create template parent index).Stays
      (fun child place => child = arena.child? parent index ∧ place = cursor) ⟨cursor, arena⟩ := by
  unfold childAt
  split
  · rename_i creating
    have room : (makeRoom table template parent index).Stays (fun _ place => place = cursor)
        ⟨cursor, arena⟩ := by
      unfold makeRoom
      apply Stays.get
      by_cases inside : index < arena.childCount parent
      · simp only [inside, ↓reduceIte]
        exact .pure rfl
      · have missing : arena.child? parent index = none :=
          Array.getElem?_eq_none (Nat.le_of_not_lt inside)
        simp only [inside, ↓reduceIte, roomless creating missing]
        exact .throw _
    exact room.bind fun _ place same => .get (.pure ⟨rfl, same⟩)
  · exact .get (.pure ⟨rfl, rfl⟩)

theorem stays_followIndices {current : Option NodeId} {last : Option (NodeId × Nat)}
    (roomless : create = true → ∀ origin, current = some origin →
      Roomless table arena rounds origin start) :
    (followIndices table create template rounds current last).Stays
      (fun result finish =>
        indices table arena (inner table arena) rounds current start = .ok result.1 finish)
      ⟨start, arena⟩ := by
  induction rounds generalizing start current last with
  | nil => exact .pure rfl
  | cons round rounds induction =>
    unfold followIndices
    apply Stays.get
    split
    · rename_i bracket
      refine (Stays.look _).bind fun _ opened advanced => ?_
      cases advanced
      refine (Stays.look _).bind fun index indexed read => ?_
      split
      · rename_i parent index
        have bounded (creating : create = true) (missing : arena.child? parent index = none) :
            DepthLimit.padding.allows (index + 1) = false :=
          roomless creating parent rfl _ _ _ (gap?_of_missing bracket read missing)
        refine (stays_childAt bounded).bind ?_
        rintro _ _ ⟨rfl, rfl⟩
        refine (Stays.look _).bind fun _ closed ended => ?_
        have onward (creating : create = true) (child : NodeId)
            (stands : arena.child? parent index = some child) :
            Roomless table arena rounds child closed := fun _ _ finish gap =>
          roomless creating parent rfl _ _ finish (gap?_of_child bracket read stands ended gap)
        exact (induction onward).mono fun _ _ followed => by
          rw [indices_cons bracket read ended]
          exact followed
      · rename_i unmatched
        refine (Stays.look _).bind fun _ closed ended => ?_
        refine (induction fun _ _ same => by cases same).mono fun result finish followed => ?_
        rw [indices_cons bracket read ended]
        cases current <;> cases index
        · exact followed
        · exact followed
        · exact followed
        · exact (unmatched _ _ rfl rfl).elim
    · rename_i other
      exact .pure (indices_of_no_bracket other)

end

/-! ## Where a child is missing -/

section

variable {table : SymbolTable} {arena : Arena} {rounds : List Char}

theorem badIndex_of_strict (strict : table.robust = false) {position : Nat} {start finish : Cursor}
    {index : Option Nat} : badIndex table position start ≠ .ok index finish := by
  rw [badIndex, strict]
  nofun

theorem isSome_indexValue (strict : table.robust = false) {deeper : Bool → Reader Target}
    {start finish : Cursor} {index : Option Nat}
    (ran : indexValue table arena deeper start = .ok index finish) : index.isSome = true := by
  have valued {target : Target} {position : Nat} {start finish : Cursor} {index : Option Nat}
      (ran : indexOfValue table (target.value arena) position start = .ok index finish) :
      index.isSome = true := by
    unfold indexOfValue at ran
    cases whole : indexInteger? (target.value arena) with
    | none =>
      rw [whole] at ran
      exact absurd ran (badIndex_of_strict strict)
    | some integer =>
      simp only [whole] at ran
      split at ran
      · cases ran
        rfl
      · exact absurd ran (badIndex_of_strict strict)
  unfold indexValue at ran
  rcases bind_eq_ok_iff.mp ran with ⟨_, _, ⟨⟩, ran⟩
  rcases bind_eq_ok_iff.mp ran with ⟨next, _, -, ran⟩
  cases next with
  | none => exact absurd ran (badIndex_of_strict strict)
  | some character =>
    simp only at ran
    split at ran
    · rcases bind_eq_ok_iff.mp ran with ⟨digits, _, -, ran⟩
      split at ran
      · cases ran
        rfl
      · exact absurd ran (badIndex_of_strict strict)
    · split at ran
      · rcases bind_eq_ok_iff.mp ran with ⟨_, _, -, ran⟩
        rcases bind_eq_ok_iff.mp ran with ⟨target, _, -, ran⟩
        exact valued ran
      · split at ran
        · rcases bind_eq_ok_iff.mp ran with ⟨target, _, -, ran⟩
          exact valued ran
        · exact absurd ran (badIndex_of_strict strict)

theorem gap_of_indices (strict : table.robust = false) {origin : NodeId} {start finish : Cursor}
    (ran : indices table arena (inner table arena) rounds (some origin) start = .ok none finish) :
    ∃ gap place, gap? table arena rounds origin start = .ok (some gap) place := by
  induction rounds generalizing origin start with
  | nil => cases ran
  | cons round rounds induction =>
    by_cases bracket : start.rest.head? = some '['
    · unfold indices at ran
      rcases bind_eq_ok_iff.mp ran with ⟨_, _, ⟨⟩, ran⟩
      rw [if_pos bracket] at ran
      rcases bind_eq_ok_iff.mp ran with ⟨_, _, ⟨⟩, ran⟩
      rcases bind_eq_ok_iff.mp ran with ⟨index, place, read, ran⟩
      rcases bind_eq_ok_iff.mp ran with ⟨_, closed, ended, ran⟩
      rcases Option.isSome_iff_exists.mp (isSome_indexValue strict read) with ⟨index, rfl⟩
      simp only at ran
      cases stands : arena.child? origin index with
      | none => exact ⟨_, _, gap?_of_missing bracket read stands⟩
      | some child =>
        rw [stands] at ran
        rcases induction ran with ⟨gap, behind, onward⟩
        exact ⟨gap, behind, gap?_of_child bracket read stands ended onward⟩
    · rw [indices_of_no_bracket bracket] at ran
      cases ran

theorem gap?_cons_cases {round : Char} {parent : NodeId} {gap : NodeId × Nat}
    {start finish : Cursor}
    (ran : gap? table arena (round :: rounds) parent start = .ok (some gap) finish) :
    start.rest.head? = some '[' ∧ ∃ index place,
      indexValue table arena (inner table arena) start.next = .ok (some index) place ∧
        ((arena.child? parent index = none ∧ gap = (parent, index) ∧ finish = place) ∨
          ∃ child closed, arena.child? parent index = some child ∧
            closeBracket table place = .ok () closed ∧
              gap? table arena rounds child closed = .ok (some gap) finish) := by
  unfold gap? at ran
  rcases bind_eq_ok_iff.mp ran with ⟨_, _, ⟨⟩, ran⟩
  split at ran
  · rename_i bracket
    rcases bind_eq_ok_iff.mp ran with ⟨_, _, ⟨⟩, ran⟩
    rcases bind_eq_ok_iff.mp ran with ⟨index, place, read, ran⟩
    cases index with
    | none => cases ran
    | some index =>
      refine ⟨bracket, index, place, read, ?_⟩
      cases stands : arena.child? parent index with
      | none =>
        simp only [stands] at ran
        cases ran
        exact .inl ⟨rfl, rfl, rfl⟩
      | some child =>
        simp only [stands] at ran
        rcases bind_eq_ok_iff.mp ran with ⟨_, closed, ended, onward⟩
        exact .inr ⟨child, closed, rfl, ended, onward⟩
  · cases ran

theorem gap?_richer {later : SymbolTable} {grown : Arena} (richer : Richer table arena later grown)
    (bare : ∀ {parent index}, arena.child? parent index = none → grown.child? parent index = none)
    {origin : NodeId} {gap : NodeId × Nat} {start finish : Cursor}
    (ran : gap? table arena rounds origin start = .ok (some gap) finish) :
    gap? later grown rounds origin start = .ok (some gap) finish := by
  induction rounds generalizing origin start with
  | nil => cases ran
  | cons round rounds induction =>
    rcases gap?_cons_cases ran with ⟨bracket, index, place, read, met⟩
    have readAgain := persistsAt_indexValue richer (persistsAt_inner richer) (.nil table) _ _
      read rfl
    rw [Cursor.followedBy_nil, Cursor.followedBy_nil] at readAgain
    rcases met with ⟨missing, rfl, rfl⟩ | ⟨child, closed, stands, ended, onward⟩
    · exact gap?_of_missing bracket readAgain (bare missing)
    · have endedAgain := persistsAt_expect richer (.nil table) ']' .unclosedIndex _ _ ended trivial
      rw [Cursor.followedBy_nil, Cursor.followedBy_nil] at endedAgain
      exact gap?_of_child bracket readAgain (richer.arena.child stands) endedAgain
        (induction onward)

theorem indices_of_gap {origin node : NodeId} {gap : NodeId × Nat} {start place finish : Cursor}
    (missing : gap? table arena rounds origin start = .ok (some gap) place) :
    indices table arena (inner table arena) rounds (some origin) start ≠
      .ok (some node) finish := by
  intro ran
  induction rounds generalizing origin start with
  | nil => cases missing
  | cons round rounds induction =>
    rcases gap?_cons_cases missing with ⟨bracket, index, indexed, read, met⟩
    rcases (indices_cons_eq_ok_iff bracket).mp ran with
      ⟨_, other, _, closed, child, ⟨⟩, readAgain, ended, stands, onward⟩
    have same := readAgain.symm.trans read
    cases same
    rcases met with ⟨none, -, -⟩ | ⟨found, closedThere, standsThere, endedThere, missing⟩
    · rw [none] at stands
      cases stands
    · rw [standsThere] at stands
      cases stands
      have place := endedThere.symm.trans ended
      cases place
      exact induction missing onward

end

/-! ## Room that was made -/

structure Gained (origin : Arena) (holds : NodeId → Nat) (later : Arena) : Prop where
  enriched : origin.Enriched later
  steady : later.Steady [] holds

theorem enriched_freed {arena : Arena} {node : Node} (wellFormed : arena.WellFormed)
    (childless : node.childArray = #[]) :
    arena.Enriched ((arena.alloc node).2.releaseIfUnowned (arena.alloc node).1) where
  node {id content} found := by
    have placed := Arena.placed_alloc wellFormed childless
    have different : id ≠ (arena.alloc node).1 := by
      intro same
      rw [Arena.node?, same, placed.live?_before] at found
      cases found
    refine ⟨content, ?_, .refl content⟩
    rwa [Arena.node?, Arena.live?_releaseIfUnowned_leaf placed.live?_same childless different,
      placed.live?_other different]
  name known := by
    have placed := Arena.placed_alloc wellFormed childless
    rwa [Arena.names_releaseIfUnowned_leaf placed.live?_same childless, placed.names]

section

variable {table : SymbolTable} (direct : table.registry.Direct) {arena : Arena}
  {holds : NodeId → Nat}

include direct

theorem gained_fillUp {origin : Arena} (gained : Gained origin holds arena)
    (template : Option NodeId) (parent : NodeId) (index rounds : Nat) :
    Gained origin holds (fillUp table.registry template parent index rounds arena) := by
  apply fillUp_keeps (Gained origin holds) _ rounds gained
  intro middle filler stored kept _ made
  rcases freshNode_eq direct template "" middle with ⟨leaf, childless, same⟩
  have enriched := kept.enriched.trans (.alloc kept.steady.wellFormed leaf)
  have freed := kept.enriched.trans (enriched_freed kept.steady.wellFormed childless)
  have steady := (Arena.Settles.alloc middle leaf holds kept.steady).1
  rw [← same, made] at enriched freed steady
  have pushed := (Arena.Settles.pushChild stored parent filler holds steady).1
  split
  · exact ⟨enriched.trans (.pushChild stored parent filler), pushed⟩
  · rename_i refused
    have unchanged : (stored.pushChild parent filler).2 = stored := by
      unfold Arena.pushChild at refused ⊢
      split at refused
      · exact absurd rfl refused
      · rename_i unlinkable
        rw [if_neg unlinkable]
    rw [unchanged]
    exact ⟨freed, (Arena.Settles.releaseIfUnowned stored filler holds steady).1⟩

variable {origin : Arena}

theorem gained_childAt (create : Bool) (parent : NodeId) (index : Nat) :
    (childAt table create none parent index).Preserves (Gained origin holds) := by
  refine meets_childAt (preserves_makeRoom fun {arena} rounds _ gained => ?_) id
  apply gained_fillUp direct
  exact ⟨gained.enriched.trans (.ensureChildren arena parent),
    (Arena.Settles.ensureChildren arena parent holds gained.steady).1⟩

/-- Without a template nothing is taken away along the indices, wherever the path fails. -/
theorem gained_buildIndices (create : Bool) (start : NodeId) :
    (buildIndices table create none start).Preserves (Gained origin holds) := by
  have followed (rounds : List Char) :=
    meets_followIndices (fun _ _ => Gained origin holds)
      (fun parent index _ => gained_childAt direct create parent index)
      id id rounds (some start) none
  exact meets_buildIndices (fun _ _ => Gained origin holds) followed (fun same => by cases same) id

end

/-! ## A key that is bound -/

/-- Nothing is made along the indices behind a key that is bound: no room, and the template is put
at none of them. -/
structure Idle (table : SymbolTable) (arena : Arena) (template : Option NodeId) (create : Bool)
    (origin : NodeId) (place : Cursor) : Prop where
  roomless : create = true → Roomless table arena place.rest origin place
  unplaced : template.isSome = true → place.rest.head? = some '[' → ∀ node finish,
    indices table arena (inner table arena) place.rest (some origin) place ≠ .ok (some node) finish

section

variable {table : SymbolTable} {arena : Arena} {create : Bool} {template : Option NodeId}
  {origin : NodeId} {place : Cursor}

theorem stays_buildIndices (idle : Idle table arena template create origin place) :
    (buildIndices table create template origin).Stays (fun _ _ => True) ⟨place, arena⟩ := by
  by_cases bracket : place.rest.head? = some '['
  · unfold buildIndices
    apply Stays.get
    have followed : (followIndices table create template place.rest (some origin) none).Stays
        (fun result finish =>
          indices table arena (inner table arena) place.rest (some origin) place =
            .ok result.1 finish) ⟨place, arena⟩ :=
      stays_followIndices fun creating _ same => by cases same; exact idle.roomless creating
    refine followed.bind fun reached finish read => ?_
    rcases reached with ⟨node, last⟩
    split
    · rename_i reached
      cases reached
      exact absurd read (idle.unplaced rfl bracket _ finish)
    · exact .pure trivial
  · rw [Stays, buildIndices_of_no_bracket bracket]
    exact ⟨rfl, trivial⟩

end

section

variable {table : SymbolTable} {arena : Arena} {create : Bool} {template : Option NodeId}
  {origin : NodeId} {start place : Cursor} {key : String}
  (read : identifier table arena (inner table arena) start = .ok key place)
  (bound : table.lookup key = some origin)

include read bound

theorem buildPrimary_of_bound :
    buildPrimary table create template ⟨start, arena⟩ =
      (if key = "" then return (none, none)
      else do
        let addressed ← buildIndices table create template origin
        match template with
        | some node =>
          if addressed = some origin then return (some node, some ⟨key, node, false⟩)
          else return (addressed, none)
        | none => return (addressed, none) : Builder _) ⟨place, arena⟩ := by
  have looked : look (fun arena => identifier table arena (inner table arena)) ⟨start, arena⟩ =
      .ok key ⟨place, arena⟩ := look_eq_ok_iff.mpr ⟨place, read, rfl⟩
  unfold buildPrimary
  rw [bind_of_ok looked]
  cases template <;> simp only [bound]

omit bound in
/-- What a key leads to that is not bound: a node is built for it and its indices are followed. -/
theorem buildPrimary_of_unbound (unbound : table.lookup key = none) (named : key ≠ "")
    {template fresh : NodeId} {stored : Arena}
    (made : freshNode table.registry (some template) key arena = (fresh, stored)) :
    buildPrimary table true (some template) ⟨start, arena⟩ =
      (do
        let addressed ← (buildIndices table true (some template) fresh).onFailure
          (·.releaseIfUnowned fresh)
        if addressed = some fresh then
          Builder.change fun arena => ((), arena.releaseIfUnowned fresh)
          return (some template, some ⟨key, template, false⟩)
        else return (addressed, some ⟨key, fresh, true⟩) : Builder _) ⟨place, stored⟩ := by
  have looked : look (fun arena => identifier table arena (inner table arena)) ⟨start, arena⟩ =
      .ok key ⟨place, arena⟩ := look_eq_ok_iff.mpr ⟨place, read, rfl⟩
  have built : Builder.change (freshNode table.registry (some template) key) ⟨place, arena⟩ =
      .ok fresh ⟨place, stored⟩ := by rw [Builder.change, made]
  unfold buildPrimary
  rw [bind_of_ok looked]
  simp only [unbound, if_neg named, ↓reduceIte]
  rw [bind_of_ok built]

theorem pending_of_bound {node : Option NodeId} {pending : Option PendingBinding}
    {finish : Progress}
    (ran : buildPrimary table create template ⟨start, arena⟩ = .ok (node, pending) finish) :
    (node = none → pending = none) ∧ ∀ arena, abandon pending arena = arena := by
  rw [buildPrimary_of_bound read bound] at ran
  split at ran
  · cases ran
    exact ⟨fun _ => rfl, fun _ => rfl⟩
  · rcases bind_eq_ok_iff.mp ran with ⟨addressed, _, -, ran⟩
    split at ran
    · split at ran
      · cases ran
        exact ⟨nofun, fun _ => rfl⟩
      · cases ran
        exact ⟨fun _ => rfl, fun _ => rfl⟩
    · cases ran
      exact ⟨fun _ => rfl, fun _ => rfl⟩

theorem ends_buildPath {holds : Arena → Prop} (begins : holds arena)
    (indexed : (buildIndices table create template origin).Ends holds ⟨place, arena⟩)
    (interned : ∀ name arena, holds arena → holds (internAttr name arena).2) :
    (buildPath table create template).Ends holds ⟨start, arena⟩ := by
  have primed : (buildPrimary table create template).Ends holds ⟨start, arena⟩ := by
    refine .congr ?_ (buildPrimary_of_bound read bound)
    split
    · exact begins
    · refine indexed.bind fun addressed later _ kept => ?_
      split
      · split
        · exact kept
        · exact kept
      · exact kept
  unfold buildPath
  refine primed.bind fun result later ran kept => ?_
  rcases result with ⟨node, pending⟩
  have nothing := (pending_of_bound read bound ran).2
  have ended : ((buildEnd table create).onFailure (abandon pending)).Preserves holds :=
    Builder.Meets.onFailure (preserves_buildEnd table create interned) fun later kept => by
      rwa [nothing later]
  exact (ended.bind fun attr => .pure (Target.mk node attr, pending)).ends kept

end

end RecordGraph.Path
