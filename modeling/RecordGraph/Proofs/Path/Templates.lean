import RecordGraph.Proofs.Arena.Spreading
import RecordGraph.Proofs.Path.Refusal

/-!
# What becomes of a template

A path puts its template at the last place along its indices before the rest of it is read. Behind a
key that is not bound this is a place below a new node, which is freed if the path fails. Behind a
key that is bound it is a place below the node of the binding, which stays as the path left it.
-/

namespace RecordGraph.Path

open Builder (look)
open RecordGraph.Arena (Overgrown Plants Reaches Spreads Stands)

/-- The place in a child list at which the indices behind a node put a template: the last place at
which they find a child, if they lead to one. -/
def placeFrom? (table : SymbolTable) (create : Bool) (template start : NodeId)
    (progress : Progress) : Option (NodeId × Nat) :=
  match followIndices table create (some template) progress.cursor.rest (some start) none
      progress with
  | .ok (some _, place) _ => place
  | _ => none

section

variable {table : SymbolTable} {create : Bool} {template start node : NodeId} {progress : Progress}

/-- Unless the indices cannot be followed, either the template is put nowhere or it takes the place
of the node that they lead to. -/
theorem buildIndices_cases (table : SymbolTable) (create : Bool) (template start : NodeId)
    (progress : Progress) :
    (∃ failure later,
      followIndices table create (some template) progress.cursor.rest (some start) none progress =
        .error failure later ∧
      buildIndices table create (some template) start progress = .error failure later ∧
      placeFrom? table create template start progress = none) ∨
    ∃ current place later,
      followIndices table create (some template) progress.cursor.rest (some start) none progress =
        .ok (current, place) later ∧
      (buildIndices table create (some template) start progress = .ok current later ∧
          placeFrom? table create template start progress = none ∨
        ∃ last parent index, current = some last ∧ place = some (parent, index) ∧
          buildIndices table create (some template) start progress =
            .ok (some template) ⟨later.cursor, (later.arena.setChild parent index template).2⟩ ∧
          placeFrom? table create template start progress = some (parent, index)) := by
  have unfolded : buildIndices table create (some template) start progress =
      (followIndices table create (some template) progress.cursor.rest (some start) none >>= _)
        progress := rfl
  rw [unfolded, placeFrom?]
  cases ran : followIndices table create (some template) progress.cursor.rest (some start) none
      progress with
  | error failure later => exact .inl ⟨failure, later, rfl, bind_of_error ran, rfl⟩
  | ok reached later =>
    rcases reached with ⟨current, place⟩
    refine .inr ⟨current, place, later, rfl, ?_⟩
    rw [bind_of_ok ran]
    rcases current with _ | last
    · exact .inl ⟨rfl, rfl⟩
    · rcases place with _ | ⟨parent, index⟩
      · exact .inl ⟨rfl, rfl⟩
      · exact .inr ⟨last, parent, index, rfl, rfl, rfl, rfl⟩

theorem placeFrom?_of_lost {later : Progress}
    (ran : buildIndices table create (some template) start progress = .ok none later) :
    placeFrom? table create template start progress = none := by
  rcases buildIndices_cases table create template start progress with
    ⟨_, _, -, -, nowhere⟩ | ⟨_, _, _, -, ⟨-, nowhere⟩ | ⟨_, _, _, -, -, put, -⟩⟩
  · exact nowhere
  · exact nowhere
  · cases put.symm.trans ran

end

/-! ## Below a new node -/

section

variable {table : SymbolTable} (sprouts : table.registry.Sprouts) {origin arena : Arena}
  {holds : NodeId → Nat} {fresh : NodeId} {template : NodeId}

structure Climbing (holds : NodeId → Nat) (origin : Arena) (fresh : NodeId)
    (current : Option NodeId) (place : Option (NodeId × Nat)) (arena : Arena) : Prop where
  plants : Plants holds [] [fresh] origin arena
  reached : ∀ {node}, current = some node → origin.Fresh arena node
  last : ∀ {parent index}, place = some (parent, index) → origin.Fresh arena parent

structure Climbed (holds : NodeId → Nat) (origin : Arena) (fresh : NodeId)
    (current : Option NodeId) (place : Option (NodeId × Nat)) (arena : Arena) : Prop
    extends Climbing holds origin fresh current place arena where
  stands : ∀ {node parent index}, current = some node → place = some (parent, index) →
    arena.child? parent index = some node

theorem Climbing.later {current : Option NodeId} {place : Option (NodeId × Nat)} {after : Arena}
    (climbing : Climbing holds origin fresh current place arena)
    (plants : Plants holds [] [fresh] origin after)
    (issued : ∀ {id}, arena.Issued id → after.Issued id) :
    Climbing holds origin fresh current place after :=
  ⟨plants, fun same => (climbing.reached same).imp_left issued,
    fun same => (climbing.last same).imp_left issued⟩

include sprouts

theorem climbing_makeRoom (template : Option NodeId) (parent : NodeId) (index : Nat)
    {place : Option (NodeId × Nat)} :
    (makeRoom table template parent index).Preserves
      (Climbing holds origin fresh (some parent) place) := by
  apply preserves_makeRoom
  intro arena rounds _ climbing
  have ensured : Climbing holds origin fresh (some parent) place (arena.ensureChildren parent) :=
    climbing.later
      (climbing.plants.modifyNode (.inr (climbing.reached rfl)) Node.childArray_ensureChildren)
      (Arena.follows_modifyNode arena parent _).issued
  apply fillUp_keeps (Climbing holds origin fresh (some parent) place) _ rounds ensured
  intro middle filler stored kept _ made
  have steady := kept.plants.steady
  have inner := (sprouts_freshNode sprouts template "" steady.wellFormed).plants steady
  rw [made] at inner
  have under := kept.reached rfl
  have live := kept.plants.live under
  rw [inner.pushChild_eq live, if_pos rfl, ← inner.pushChild_eq live]
  exact kept.later (kept.plants.attach inner live (.inr under)) fun known =>
    (Arena.issued_pushChild_iff stored parent filler _).mpr (inner.issued known)

theorem climbed_childAt (create : Bool) (template : Option NodeId) (parent : NodeId) (index : Nat)
    {place : Option (NodeId × Nat)} :
    (childAt table create template parent index).Meets
      (Climbed holds origin fresh (some parent) place)
      (fun child => Climbed holds origin fresh child
        (if child.isSome then some (parent, index) else place))
      (Plants holds [] [fresh] origin) := by
  have room := (climbing_makeRoom sprouts template parent index).mono (fun _ => id)
    fun _ (climbing : Climbing holds origin fresh (some parent) place _) => climbing.plants
  refine (meets_childAt room fun {arena} climbing => ?_).mono
    (fun _ climbed => climbed.toClimbing) fun _ => id
  have under := climbing.reached rfl
  refine ⟨⟨climbing.plants, fun found => ?_, fun same => ?_⟩, fun found same => ?_⟩
  · exact climbing.plants.closed under (Array.mem_of_getElem? found)
  · split at same
    · cases same
      exact under
    · exact climbing.last same
  · rw [found, Option.isSome_some, if_pos rfl] at same
    cases same
    exact found

/-- What following the indices below a new node leaves. As long as the template is not put at a
place, all that was there before is as it was. Once it is, it has an owner, and nothing else than
its owners has changed. -/
structure Bears (holds : NodeId → Nat) (origin : Arena) (fresh template : NodeId) (put : Bool)
    (arena : Arena) : Prop where
  new : ¬ origin.Issued fresh
  grown : Overgrown holds [fresh] origin arena
  kept : put = false → ∀ {id}, origin.Issued id → arena.live? id = origin.live? id
  stands : origin.isUnowned template = false → origin.Stands arena
  owned : put = true → origin.isUnowned template = true → arena.isUnowned template = false

omit sprouts in
theorem bears_of_plants (plants : Plants holds [] [fresh] origin arena) (template : NodeId) :
    Bears holds origin fresh template false arena where
  new := (plants.top_fresh (List.mem_singleton_self fresh)).2
  grown := plants.overgrown
  kept _ _ known := plants.kept known List.not_mem_nil
  stands _ := plants.stands
  owned := nofun

omit sprouts in
theorem Climbed.bears {last parent : NodeId} {index : Nat} (steady : origin.Steady [] holds)
    (climbed : Climbed holds origin fresh (some last) (some (parent, index)) arena)
    (live : origin.contains template = true) :
    Bears holds origin fresh template true (arena.setChild parent index template).2 := by
  have stood := climbed.stands rfl rfl
  have under := climbed.last rfl
  have known := Arena.issued_of_contains live
  have begun := bears_of_plants climbed.plants template
  refine ⟨begun.new, begun.grown.setChild stood under.2 known, nofun, fun owned => ?_,
    fun _ unowned => ?_⟩
  · exact climbed.plants.stands.setChild steady climbed.plants.steady stood
      (Arena.live?_of_not_issued under.2) owned
  · rcases Arena.isUnowned_iff.mp unowned with ⟨node, found⟩
    have here := (climbed.plants.kept known List.not_mem_nil).trans found
    have different : last ≠ template := by
      rintro rfl
      exact (climbed.reached rfl).2 known
    have linkable : arena.canLink template = true := by simp [Arena.canLink, here]
    rw [Arena.setChild_of_child stood, if_pos ⟨different, linkable⟩, Bool.eq_false_iff]
    intro left
    have waning := (climbed.plants.steady.exchange stood linkable).release.2
    rcases (Arena.Follows.of_wanes waning).unowned left with earlier | member
    · rw [Arena.isUnowned_exchanged] at earlier
      cases earlier
    · cases member

theorem bears_buildIndices (steady : origin.Steady [] holds)
    (plants : Plants holds [] [fresh] origin arena) (live : origin.contains template = true)
    (create : Bool) (cursor : Cursor) :
    (buildIndices table create (some template) fresh).Ends
      (Bears holds origin fresh template
        (placeFrom? table create template fresh ⟨cursor, arena⟩).isSome) ⟨cursor, arena⟩ := by
  have begun : Climbed holds origin fresh (some fresh) none arena :=
    ⟨⟨plants, fun same => by cases same; exact plants.top_fresh (List.mem_singleton_self _), nofun⟩,
      nofun⟩
  have followed := meets_followIndices (Climbed holds origin fresh)
    (fun parent index _ => climbed_childAt sprouts create (some template) parent index)
    (fun climbed => ⟨⟨climbed.plants, nofun, climbed.last⟩, nofun⟩)
    (fun climbed => climbed.plants) cursor.rest (some fresh) none ⟨cursor, arena⟩ begun
  unfold Builder.Ends
  rcases buildIndices_cases table create template fresh ⟨cursor, arena⟩ with
    ⟨failure, later, ran, ended, nowhere⟩ |
      ⟨current, place, later, ran, ⟨ended, nowhere⟩ | ⟨last, parent, index, rfl, rfl, ended, put⟩⟩
  · rw [ran] at followed
    rw [ended, nowhere]
    exact bears_of_plants followed template
  · rw [ran] at followed
    rw [ended, nowhere]
    exact bears_of_plants followed.plants template
  · rw [ran] at followed
    rw [ended, put]
    exact Climbed.bears steady followed live

/-- What is left when the new nodes are gone: all that was there before is as it was, unless they
were the only owners of the template, for then it goes with them. -/
structure Left (origin : Arena) (template : NodeId) (put : Bool) (arena : Arena) : Prop where
  kept : (put = true → origin.isUnowned template = false) →
    ∀ {id}, origin.contains id = true → arena.live? id = origin.live? id
  gone : put = true → origin.isUnowned template = true → arena.contains template = false

omit sprouts in
theorem Left.names {put : Bool} (left : Left origin template put arena) (names : NameTable) :
    Left origin template put { arena with names } :=
  ⟨left.kept, left.gone⟩

omit sprouts in
theorem Bears.freed {put : Bool} (bears : Bears holds origin fresh template put arena)
    (steady : origin.Steady [] holds) :
    Left origin template put (arena.releaseIfUnowned fresh) where
  kept spared {id} _ := by
    have stands : origin.Stands arena := by
      cases put with
      | false => exact .of_same fun live => bears.kept rfl (Arena.issued_of_contains live)
      | true => exact bears.stands (spared rfl)
    exact bears.grown.uprooted steady bears.new stands id
  gone put unowned := by
    rw [Arena.contains, bears.grown.uprooted_owned steady unowned (bears.owned put unowned)]
    rfl

omit sprouts in
theorem Bears.names {put : Bool} (bears : Bears holds origin fresh template put arena)
    (names : NameTable) : Bears holds origin fresh template put { arena with names } :=
  ⟨bears.new, bears.grown.names names, bears.kept, fun owned => ⟨(bears.stands owned).node⟩,
    bears.owned⟩

/-! ## A key that is not bound -/

/-- What a primary leaves whose key is not bound. Either a binding to the new node is asked for, or
the new node is gone. Where no node is reached, the template was put nowhere. -/
inductive Primed (table : SymbolTable) (holds : NodeId → Nat) (origin : Arena) (template : NodeId)
    (put : Bool) : Option NodeId → Option PendingBinding → Arena → Prop where
  | pending {node : Option NodeId} {key : String} {fresh : NodeId} {arena : Arena}
      (free : table.lookup key = none) (bears : Bears holds origin fresh template put arena)
      (lost : node = none → put = false) :
      Primed table holds origin template put node (some ⟨key, fresh, true⟩) arena
  | settled {node : Option NodeId} {pending : Option PendingBinding} {arena : Arena}
      (left : Left origin template put arena)
      (nothing : ∀ arena, abandon pending arena = arena) (lost : node = none → pending = none) :
      Primed table holds origin template put node pending arena

def PrimaryEnds (table : SymbolTable) (holds : NodeId → Nat) (origin : Arena) (template : NodeId)
    (put : Bool) :
    EStateM.Result Error Progress (Option NodeId × Option PendingBinding) → Prop
  | .ok (node, pending) later => Primed table holds origin template put node pending later.arena
  | .error _ later => Left origin template put later.arena

namespace Primed

omit sprouts

variable {put : Bool} {node : Option NodeId} {pending : Option PendingBinding}

theorem names (primed : Primed table holds origin template put node pending arena)
    (names : NameTable) :
    Primed table holds origin template put node pending { arena with names } := by
  cases primed with
  | pending free bears lost => exact .pending free (bears.names names) lost
  | settled left nothing lost => exact .settled (left.names names) nothing lost

theorem abandoned (primed : Primed table holds origin template put node pending arena)
    (steady : origin.Steady [] holds) :
    Left origin template put (abandon pending arena) := by
  cases primed with
  | pending free bears lost => exact bears.freed steady
  | settled left nothing lost => rwa [nothing]

end Primed

end

section

variable {table : SymbolTable} {origin stored : Arena} {holds : NodeId → Nat}
  {template fresh : NodeId} {start place : Cursor} {key : String}
  (read : identifier table origin (inner table origin) start = .ok key place)
  (unbound : table.lookup key = none) (named : key ≠ "")
  (made : freshNode table.registry (some template) key origin = (fresh, stored))

include read unbound named made

theorem primed_buildPrimary (sprouts : table.registry.Sprouts) (steady : origin.Steady [] holds)
    (live : origin.contains template = true) :
    PrimaryEnds table holds origin template
      (placeFrom? table true template fresh ⟨place, stored⟩).isSome
      (buildPrimary table true (some template) ⟨start, origin⟩) := by
  have plants := (sprouts_freshNode sprouts (some template) key steady.wellFormed).plants steady
  rw [made] at plants
  have bears := bears_buildIndices sprouts steady plants live true place
  rw [buildPrimary_of_unbound read unbound named made]
  unfold Builder.Ends at bears
  cases ran : buildIndices table true (some template) fresh ⟨place, stored⟩ with
  | error failure later =>
    rw [ran] at bears
    have freed : (buildIndices table true (some template) fresh).onFailure
        (·.releaseIfUnowned fresh) ⟨place, stored⟩ =
          .error failure ⟨later.cursor, later.arena.releaseIfUnowned fresh⟩ := by
      rw [Builder.onFailure, ran]
    rw [bind_of_error freed]
    exact bears.freed steady
  | ok addressed later =>
    rw [ran] at bears
    rw [bind_of_ok (onFailure_eq_ok_iff.mpr ran)]
    by_cases same : addressed = some fresh
    · rw [if_pos same]
      exact .settled (bears.freed steady) (fun _ => rfl) nofun
    · rw [if_neg same]
      refine .pending unbound bears fun lost => ?_
      rw [lost] at ran
      rw [placeFrom?_of_lost ran, Option.isSome_none]

end

/-! ## Below a node that is bound -/

structure Spread (holds : NodeId → Nat) (origin arena : Arena) : Prop where
  steady : arena.Steady [] holds
  spreads : origin.Spreads arena

structure Wending (holds : NodeId → Nat) (origin : Arena) (existing : NodeId)
    (current : Option NodeId) (place : Option (NodeId × Nat)) (arena : Arena) : Prop
    extends Spread holds origin arena where
  reached : ∀ {node}, current = some node → arena.Issued node ∧ arena.Reaches existing node
  last : ∀ {parent index}, place = some (parent, index) →
    arena.Reaches existing parent ∧ ∃ child, arena.child? parent index = some child

section

variable {table : SymbolTable} {origin arena : Arena} {holds : NodeId → Nat}
  {existing template : NodeId}

theorem Wending.later {current : Option NodeId} {place : Option (NodeId × Nat)} {after : Arena}
    (wending : Wending holds origin existing current place arena)
    (spread : Spread holds arena after) : Wending holds origin existing current place after where
  steady := spread.steady
  spreads := wending.spreads.trans spread.spreads
  reached same := (wending.reached same).imp spread.spreads.issued spread.spreads.reaches
  last same := by
    rcases wending.last same with ⟨reaches, child, stands⟩
    exact ⟨spread.spreads.reaches reaches, child, spread.spreads.child stands⟩

variable (sprouts : table.registry.Sprouts)

include sprouts

theorem spread_fillUp (steady : arena.Steady [] holds) (template : Option NodeId)
    {parent : NodeId} (known : arena.Issued parent) (index rounds : Nat) :
    Spread holds arena (fillUp table.registry template parent index rounds arena) := by
  apply fillUp_keeps (Spread holds arena) _ rounds ⟨steady, .refl arena⟩
  intro middle filler stored kept _ made
  have inner := (sprouts_freshNode sprouts template "" kept.steady.wellFormed).plants kept.steady
  rw [made] at inner
  have knownMiddle := kept.spreads.issued known
  cases live : middle.contains parent with
  | true =>
    rw [inner.pushChild_eq live, if_pos rfl, ← inner.pushChild_eq live]
    exact ⟨inner.steady.pushChild parent filler, kept.spreads.trans (.attach inner live)⟩
  | false =>
    have stale : stored.contains parent = false := by
      rwa [Arena.contains, inner.live?_inner knownMiddle]
    rw [Arena.pushChild_of_stale (List.mem_cons_self ..) stale, if_neg Bool.false_ne_true]
    exact ⟨(inner.steady.releaseIfUnowned filler).1,
      kept.spreads.trans (.uprooted inner kept.steady)⟩

theorem wending_makeRoom (template : Option NodeId) (parent : NodeId) (index : Nat)
    {place : Option (NodeId × Nat)} :
    (makeRoom table template parent index).Preserves
      (Wending holds origin existing (some parent) place) := by
  apply preserves_makeRoom
  intro arena rounds _ wending
  have ensured := wending.later
    ⟨wending.steady.ensureChildren parent, .ensureChildren arena parent⟩
  exact ensured.later
    (spread_fillUp sprouts ensured.steady template (ensured.reached rfl).1 index rounds)

theorem wending_childAt (create : Bool) (template : Option NodeId) (parent : NodeId) (index : Nat)
    {place : Option (NodeId × Nat)} :
    (childAt table create template parent index).Meets
      (Wending holds origin existing (some parent) place)
      (fun child => Wending holds origin existing child
        (if child.isSome then some (parent, index) else place)) (Spread holds origin) := by
  have room := (wending_makeRoom sprouts template parent index).mono (fun _ => id)
    fun _ (wending : Wending holds origin existing (some parent) place _) => wending.toSpread
  apply meets_childAt room
  intro arena wending
  have below := (wending.reached rfl).2
  refine ⟨wending.toSpread, fun {node} found => ?_, fun {other number} same => ?_⟩
  · have member : node ∈ arena.children parent := Array.mem_of_getElem? found
    exact ⟨Arena.issued_of_contains (wending.steady.child_live member), below.tail member⟩
  · split at same
    · rename_i stands
      cases same
      exact ⟨below, Option.isSome_iff_exists.mp stands⟩
    · exact wending.last same

/-- Below a node that is held the template stays, and if it is put nowhere it may only have got more
children. -/
theorem spread_buildIndices (steady : origin.Steady [] holds) (known : origin.Issued existing)
    (held : origin.contains existing = true → 0 < holds existing)
    (live : origin.contains template = true) (create : Bool) (cursor : Cursor) :
    (buildIndices table create (some template) existing).Ends (fun later =>
      later.contains template = true ∧
        (placeFrom? table create template existing ⟨cursor, origin⟩ = none → origin.Spreads later))
      ⟨cursor, origin⟩ := by
  have begun : Wending holds origin existing (some existing) none origin :=
    ⟨⟨steady, .refl origin⟩, fun same => by cases same; exact ⟨known, .refl⟩, nofun⟩
  have followed := meets_followIndices (Wending holds origin existing)
    (fun parent index _ => wending_childAt sprouts create (some template) parent index)
    (fun wending => ⟨wending.toSpread, nofun, wending.last⟩)
    (fun wending => wending.toSpread) cursor.rest (some existing) none ⟨cursor, origin⟩ begun
  have unput {later : Arena} (spread : Spread holds origin later) :
      later.contains template = true :=
    (spread.spreads.contains (Arena.issued_of_contains live)).trans live
  unfold Builder.Ends
  rcases buildIndices_cases table create template existing ⟨cursor, origin⟩ with
    ⟨failure, later, ran, ended, nowhere⟩ |
      ⟨current, place, later, ran, ⟨ended, nowhere⟩ | ⟨last, parent, index, rfl, rfl, ended, put⟩⟩
  · rw [ran] at followed
    rw [ended]
    exact ⟨unput followed, fun _ => followed.spreads⟩
  · rw [ran] at followed
    rw [ended]
    exact ⟨unput followed.toSpread, fun _ => followed.spreads⟩
  · rw [ran] at followed
    rw [ended, put]
    rcases followed.last rfl with ⟨reaches, old, stood⟩
    have standing := reaches.contains (Arena.contains_of_child stood)
    rw [followed.spreads.contains known] at standing
    exact ⟨Arena.contains_setChild followed.steady (held standing) reaches stood
      (unput followed.toSpread), nofun⟩

end

end RecordGraph.Path
