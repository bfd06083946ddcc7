import RecordGraph.Proofs.Path.Leaves
import RecordGraph.Proofs.Path.Plain
import RecordGraph.Proofs.SymbolTable.Agreement

/-!
# The way that a template is put at

Where a child is missing at an index, the parent gets new leaves, and so does the leaf at the index
where more indices follow. At the end of the way a leaf stands that nothing but its place knows, and
the template is put there instead of it.
-/

namespace RecordGraph.Path

open RecordGraph.Arena (KeepsAttrs)

structure Roomy (arena : Arena) (parent : NodeId) (later : Arena) : Prop where
  others : ∀ {id}, id ≠ parent → arena.Issued id → later.live? id = arena.live? id
  grown : ∀ {node owners}, arena.live? parent = some (node, owners) →
    ∃ content, later.live? parent = some (content, owners) ∧ content.attrs = node.attrs
  issued : ∀ {id}, arena.Issued id → later.Issued id
  names : later.names = arena.names
  child : ∀ {index child}, later.child? parent index = some child →
    arena.child? parent index = some child ∨
      ¬ arena.Issued child ∧
        ∃ node owners, later.live? child = some (node, owners) ∧ node.childArray = #[]

namespace Roomy

variable {arena middle later : Arena} {parent : NodeId}

theorem refl (arena : Arena) (parent : NodeId) : Roomy arena parent arena where
  others _ _ := rfl
  grown {node _} found := ⟨node, found, rfl⟩
  issued := id
  names := rfl
  child := .inl

theorem trans (issued : arena.Issued parent) (left : Roomy arena parent middle)
    (right : Roomy middle parent later) : Roomy arena parent later where
  others different known :=
    (right.others different (left.issued known)).trans (left.others different known)
  grown found := by
    rcases left.grown found with ⟨between, foundBetween, same⟩
    rcases right.grown foundBetween with ⟨content, foundLater, sameLater⟩
    exact ⟨content, foundLater, sameLater.trans same⟩
  issued := right.issued ∘ left.issued
  names := right.names.trans left.names
  child {index child} found := by
    rcases right.child found with earlier | ⟨new, bare⟩
    · rcases left.child earlier with first | ⟨new, node, owners, live, childless⟩
      · exact .inl first
      · have different : child ≠ parent := by
          rintro rfl
          exact new issued
        refine .inr ⟨new, node, owners, ?_, childless⟩
        rw [right.others different (Arena.issued_of_live live), live]
    · exact .inr ⟨fun known => new (left.issued known), bare⟩

theorem keepsAttrs (roomy : Roomy arena parent later) : arena.KeepsAttrs later where
  node {id node} found := by
    rcases Arena.contains_iff.mp (Arena.contains_iff_node?.mpr ⟨node, found⟩) with
      ⟨content, owners, live⟩
    have same : content = node := by simpa [Arena.node?, live] using found
    subst same
    by_cases same : id = parent
    · subst same
      rcases roomy.grown live with ⟨later, foundLater, attrs⟩
      exact ⟨later, by rw [Arena.node?, foundLater, Option.map_some], attrs⟩
    · refine ⟨content, ?_, rfl⟩
      rw [Arena.node?, roomy.others same (Arena.issued_of_live live), live, Option.map_some]

theorem push {leaf : Node} (wellFormed : arena.WellFormed) (childless : leaf.childArray = #[])
    (live : arena.contains parent = true) :
    Roomy arena parent ((arena.alloc leaf).2.pushChild parent (arena.alloc leaf).1).2 := by
  have placed := Arena.placed_alloc wellFormed childless
  generalize arena.alloc leaf = stored at placed
  rcases stored with ⟨id, later⟩
  have reads := placed.live?_pushChild live
  have names : (later.pushChild parent id).2.names = arena.names := by
    rw [placed.pushChild_eq live]
    exact placed.names
  have issued {asked : NodeId} (known : arena.Issued asked) :
      (later.pushChild parent id).2.Issued asked :=
    (later.issued_pushChild_iff parent id asked).mpr (placed.issued known)
  have notParent : id ≠ parent := (placed.ne_parent live).symm
  rcases Arena.contains_iff.mp live with ⟨node, owners, found⟩
  generalize (later.pushChild parent id).2 = pushed at reads names issued ⊢
  have foundParent : pushed.live? parent = some (node.push id, owners) := by
    rw [reads, if_pos rfl, found, Option.map_some]
  have foundLeaf : pushed.live? id = some (leaf, 1) := by
    rw [reads, if_neg notParent, if_pos rfl]
  refine ⟨fun {asked} other known => ?_, fun {content count} foundAgain => ?_, issued, names,
    fun {index child} stands => ?_⟩
  · have old : asked ≠ id := by
      rintro rfl
      exact placed.not_issued known
    rw [reads, if_neg other, if_neg old]
  · cases found.symm.trans foundAgain
    exact ⟨_, foundParent, by cases node with | mk _ _ _ children => cases children <;> rfl⟩
  · rw [Arena.child?, Arena.children_of_live foundParent, Node.childArray_push,
      Array.getElem?_push] at stands
    split at stands
    · cases stands
      exact .inr ⟨placed.not_issued, leaf, 1, foundLeaf, childless⟩
    · exact .inl (by rwa [Arena.child?, Arena.children_of_live found])

theorem ensureChildren (arena : Arena) (parent : NodeId) :
    Roomy arena parent (arena.ensureChildren parent) where
  others different _ := by rw [Arena.ensureChildren, Arena.live?_modifyNode, if_neg different]
  grown {node owners} found := by
    refine ⟨node.ensureChildren, ?_, ?_⟩
    · rw [Arena.ensureChildren, Arena.live?_modifyNode, if_pos rfl, found, Option.map_some]
    · unfold Node.ensureChildren
      split <;> rfl
  issued known := (Arena.follows_modifyNode arena parent _).issued known
  names := rfl
  child {index child} stands := by
    left
    rwa [Arena.child?, Arena.ensureChildren,
      Arena.children_modifyNode arena parent parent Node.childArray_ensureChildren] at stands

end Roomy

section

variable {table : SymbolTable} (direct : table.registry.Direct) {arena : Arena}
  {holds : NodeId → Nat} (steady : arena.Steady [] holds)

include direct steady

theorem roomy_fillUp (template : Option NodeId) {parent : NodeId} (index rounds : Nat)
    (live : arena.contains parent = true) :
    Roomy arena parent (fillUp table.registry template parent index rounds arena) := by
  induction rounds generalizing arena with
  | zero => exact .refl arena parent
  | succ rounds induction =>
    unfold fillUp
    split
    · exact .refl arena parent
    · rcases freshNode_eq direct template "" arena with ⟨leaf, childless, same⟩
      have roomy := Roomy.push steady.wellFormed childless live
      have steadyLater := ((Arena.Settles.alloc arena leaf).andThen
        (.pushChild _ parent (arena.alloc leaf).1) holds steady).1
      have placed := Arena.placed_alloc steady.wellFormed childless
      simp only [same, placed.pushed live, ↓reduceIte]
      refine roomy.trans (Arena.issued_of_contains live) (induction steadyLater ?_)
      rw [Arena.contains_pushChild]
      exact placed.contains live

end

/-! ## A way that is made -/

structure Ready (holds : NodeId → Nat) (waiting : NodeId) (leaf : Node) (arena : Arena) : Prop where
  steady : arena.Steady [] holds
  free : arena.live? waiting = some (leaf, 0)
  childless : leaf.childArray = #[]

theorem Ready.unlisted {holds : NodeId → Nat} {waiting : NodeId} {leaf : Node} {arena : Arena}
    (ready : Ready holds waiting leaf arena) {parent : NodeId} {index : Nat} :
    arena.child? parent index ≠ some waiting := by
  intro stands
  have listed := Arena.occurrences_pos (Array.mem_of_getElem? stands)
  have count := ready.steady.ownerCount_eq waiting
  rw [Arena.ownerCount_of_live ready.free] at count
  omega

structure Paves (holds : NodeId → Nat) (waiting : NodeId) (leaf : Node) (arena : Arena)
    (origin : NodeId) (numbers : List Nat) (later : Arena) (place : NodeId × Nat) (node : NodeId) :
    Prop where
  ready : Ready holds waiting leaf later
  enriched : arena.Enriched later
  keeps : arena.KeepsAttrs later
  names : later.names = arena.names
  way : ∃ front, numbers = front ++ [place.2] ∧ later.descend origin front = some place.1
  stands : later.child? place.1 place.2 = some node
  new : ¬ arena.Issued node
  bare : ∃ content owners, later.live? node = some (content, owners) ∧ content.childArray = #[]

theorem Paves.cons {holds : NodeId → Nat} {waiting : NodeId} {leaf : Node}
    {arena roomy later : Arena} {origin child node : NodeId} {index : Nat} {numbers : List Nat}
    {place : NodeId × Nat}
    (enriched : arena.Enriched roomy) (made : Roomy arena origin roomy)
    (stands : roomy.child? origin index = some child)
    (paves : Paves holds waiting leaf roomy child numbers later place node) :
    Paves holds waiting leaf arena origin (index :: numbers) later place node where
  ready := paves.ready
  enriched := enriched.trans paves.enriched
  keeps := made.keepsAttrs.trans paves.keeps
  names := paves.names.trans made.names
  way := by
    rcases paves.way with ⟨front, numbers, leads⟩
    refine ⟨index :: front, by rw [numbers, List.cons_append], ?_⟩
    rw [Arena.descend, paves.enriched.child stands, Option.bind_some, leads]
  stands := paves.stands
  new known := paves.new (made.issued known)
  bare := paves.bare

structure Leads (waiting : NodeId) (leaf : Node) (owners : Nat) (arena : Arena) (origin : NodeId)
    (numbers : List Nat) (later : Arena) : Prop where
  way : later.descend origin numbers = some waiting
  owned : later.live? waiting = some (leaf, owners)
  keeps : arena.KeepsAttrs later
  names : later.names = arena.names

/-- At the end of a way that is made the leaf that waited takes the place of the new one. -/
theorem Paves.put {holds : NodeId → Nat} {waiting : NodeId} {leaf : Node} {arena later : Arena}
    {origin node : NodeId} {numbers : List Nat} {place : NodeId × Nat}
    (paves : Paves holds waiting leaf arena origin numbers later place node) :
    Leads waiting leaf 1 arena origin numbers (later.setChild place.1 place.2 waiting).2 := by
  rcases paves.bare with ⟨content, owners, found, childless⟩
  have different : node ≠ waiting := fun same => paves.ready.unlisted (same ▸ paves.stands)
  have put := Arena.setChild_replaces paves.stands found childless paves.ready.free
    paves.ready.childless different
  have new : arena.contains node = false :=
    Bool.eq_false_iff.mpr fun live => paves.new (Arena.issued_of_contains live)
  rcases paves.way with ⟨front, numbers, leads⟩
  have bare : later.children node = #[] := by rw [Arena.children_of_live found, childless]
  exact {
    way := by
      rw [numbers]
      exact put.1.descend paves.stands bare leads
    owned := put.2.2
    keeps := paves.keeps.setChild paves.stands found childless paves.ready.free
      paves.ready.childless different new
    names := put.2.1.trans paves.names }

section

variable {table : SymbolTable} (direct : table.registry.Direct) {template : Option NodeId}
  {holds : NodeId → Nat} {waiting : NodeId} {leaf : Node} {arena : Arena}
  (ready : Ready holds waiting leaf arena)

include direct ready

theorem ready_childAt {parent child : NodeId} {index : Nat} {start finish : Cursor} {after : Arena}
    (live : arena.contains parent = true) (apart : parent ≠ waiting)
    (ran : childAt table true template parent index ⟨start, arena⟩ =
      .ok (some child) ⟨finish, after⟩) :
    finish = start ∧ after.child? parent index = some child ∧ arena.Enriched after ∧
      Roomy arena parent after ∧ Ready holds waiting leaf after := by
  rcases childAt_cases ran with ⟨ended, found, rfl | rfl⟩
  · exact ⟨ended, found, .refl _, .refl _ parent, ready⟩
  · have ensured := (Arena.Settles.ensureChildren arena parent holds ready.steady).1
    have liveStill : (arena.ensureChildren parent).contains parent = true := by
      rwa [Arena.ensureChildren, Arena.contains_modifyNode]
    have roomy := (Roomy.ensureChildren arena parent).trans (Arena.issued_of_contains live)
      (roomy_fillUp direct ensured template index (index + 1 - arena.childCount parent) liveStill)
    refine ⟨ended, found, (Arena.Enriched.ensureChildren arena parent).trans
      (enriched_fillUp direct.allocates ensured template index _ liveStill), roomy, ?_, ?_,
      ready.childless⟩
    · exact (settles_fillUp direct.allocates template parent index _ _ holds ensured).1
    · rw [roomy.others (Ne.symm apart) (Arena.issued_of_live ready.free), ready.free]

theorem paves_followIndices {indices : List (List Char)} {rest rounds : List Char}
    (indexed : Indexed indices rounds) (ends : rest.head? ≠ some '[') {origin node : NodeId} {place last : Option (NodeId × Nat)}
    {position : Nat} {finish : Cursor} {after : Arena}
    (live : arena.contains origin = true) (apart : origin ≠ waiting)
    (missing : (∀ digits ∈ indices, indexOf digits < indexBound) →
      arena.descend origin (indices.map indexOf) = none)
    (ran : followIndices table true template rounds (some origin) place
      ⟨⟨position, bracketed indices ++ rest⟩, arena⟩ = .ok (some node, last) ⟨finish, after⟩) :
    (∀ digits ∈ indices, indexOf digits < indexBound) ∧ finish = .behind position indices rest ∧
      ∃ place, last = some place ∧
        Paves holds waiting leaf arena origin (indices.map indexOf) after place node := by
  induction indexed generalizing arena origin place position with
  | nil => cases missing nofun
  | @cons digits indices round rounds present isDigit _ induction =>
    rw [bracketed_cons] at ran
    rcases (followIndices_cons_eq_ok_iff rfl).mp ran with
      ⟨_, index, indexed, child, reached, roomy, closed, ⟨⟩, read, found, ended, onward⟩
    rcases (indexValue_eq_ok_iff present isDigit).mp read with ⟨small, rfl, rfl⟩
    rcases ready_childAt direct ready live apart found with
      ⟨rfl, stands, enriched, made, readyRoomy⟩
    cases (closeBracket_eq _).symm.trans ended
    rw [← behind_cons]
    have childLive := readyRoomy.steady.child_live (Array.mem_of_getElem? stands)
    have childApart : child ≠ waiting := fun same => readyRoomy.unlisted (same ▸ stands)
    have go (missing : (∀ digits ∈ indices, indexOf digits < indexBound) →
        roomy.descend child (indices.map indexOf) = none) :=
      induction readyRoomy childLive childApart missing onward
    cases stood : arena.child? origin (indexOf digits) with
    | some known =>
      cases (childAt_of_child? stood template).symm.trans found
      have missing (smaller : ∀ digits ∈ indices, indexOf digits < indexBound) :
          arena.descend child (indices.map indexOf) = none := by
        have nothing := missing (List.forall_mem_cons.mpr ⟨small, smaller⟩)
        rwa [List.map_cons, Arena.descend, stood, Option.bind_some] at nothing
      rcases go missing with ⟨smaller, same, place, given, paves⟩
      exact ⟨List.forall_mem_cons.mpr ⟨small, smaller⟩, same, place, given,
        .cons enriched made stands paves⟩
    | none =>
      rcases made.child stands with earlier | ⟨new, content, owners, foundChild, childless⟩
      · rw [stood] at earlier
        cases earlier
      · cases indices with
        | nil =>
          rw [followIndices_of_no_bracket ends] at onward
          cases onward
          exact ⟨List.forall_mem_cons.mpr ⟨small, nofun⟩, rfl, _, rfl, readyRoomy, enriched,
            made.keepsAttrs, made.names, ⟨[], rfl, rfl⟩, stands, new, content, owners,
            foundChild, childless⟩
        | cons next indices =>
          -- nothing stands below a leaf, so the way goes on with new leaves only
          have below : roomy.child? child (indexOf next) = none := by
            rw [Arena.child?, Arena.children_of_live foundChild, childless, Array.getElem?_empty]
          have missing : roomy.descend child ((next :: indices).map indexOf) = none := by
            rw [List.map_cons, Arena.descend, below, Option.bind_none]
          rcases go fun _ => missing with ⟨smaller, same, place, given, paves⟩
          exact ⟨List.forall_mem_cons.mpr ⟨small, smaller⟩, same, place, given,
            .cons enriched made stands paves⟩

theorem leads_buildIndices {indices : List (List Char)} {rest : List Char}
    (areDigits : ∀ digits ∈ indices, digits ≠ [] ∧ ∀ digit ∈ digits, Text.isDigit digit = true)
    (ends : rest.head? ≠ some '[') {origin node : NodeId} {position : Nat} {finish : Cursor}
    {after : Arena} (live : arena.contains origin = true) (apart : origin ≠ waiting)
    (missing : (∀ digits ∈ indices, indexOf digits < indexBound) →
      arena.descend origin (indices.map indexOf) = none)
    (ran : buildIndices table true (some waiting) origin
      ⟨⟨position, bracketed indices ++ rest⟩, arena⟩ = .ok (some node) ⟨finish, after⟩) :
    node = waiting ∧ (∀ digits ∈ indices, indexOf digits < indexBound) ∧
      finish = .behind position indices rest ∧
      Leads waiting leaf 1 arena origin (indices.map indexOf) after := by
  unfold buildIndices at ran
  rcases bind_eq_ok_iff.mp ran with ⟨_, _, ⟨⟩, ran⟩
  rcases bind_eq_ok_iff.mp ran with ⟨⟨reached, last⟩, ⟨place, roomy⟩, followed, ran⟩
  cases reached with
  | none => cases ran
  | some reached =>
    rcases paves_followIndices direct ready (.of_bracketed areDigits rest) ends live apart missing
      followed with ⟨small, rfl, ⟨parent, index⟩, rfl, paves⟩
    rcases bind_eq_ok_iff.mp ran with ⟨_, _, put, ⟨⟩⟩
    rcases change_eq_ok_iff.mp put with ⟨-, ⟨⟩⟩
    exact ⟨rfl, small, rfl, paves.put⟩

end

end RecordGraph.Path
