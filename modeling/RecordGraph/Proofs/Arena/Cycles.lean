import Mathlib.Algebra.BigOperators.Fin
import RecordGraph.Arena.Cycle
import RecordGraph.Proofs.Arena.Spreading

/-!
# Cycles that are found

The search for a cycle keeps a path from the root, and the nodes that were left with all that is
below them. Every child of a node on the path is still to be looked at, was left, or stands next on
the path. So a node that is left leads to nodes that were left before it only, and hides no cycle,
while a child that stands on the path is below itself. Every round looks at one place in a child
list or leaves a node, and no place comes twice.
-/

namespace RecordGraph.Arena

/-! ## Marks by slot -/

def marked (marks : Array Bool) (id : NodeId) : Bool :=
  marks.getD id.index false

variable {arena : Arena} {root id other : NodeId}

theorem index_lt_of_contains (live : arena.contains id = true) : id.index < arena.slots.size := by
  rcases contains_iff.mp live with ⟨node, owners, found⟩
  exact (Array.getElem?_eq_some_iff.mp (live?_eq_some_iff.mp found)).1

theorem getD_unmarked (size index : Nat) :
    (Array.replicate size false).getD index false = false := by
  rw [Array.getD_eq_getD_getElem?, Array.getElem?_replicate]
  split <;> rfl

theorem marked_set {marks : Array Bool} (size : marks.size = arena.slots.size)
    (live : arena.contains id = true) (otherLive : arena.contains other = true) (value : Bool) :
    marked (marks.setIfInBounds id.index value) other =
      if other = id then value else marked marks other := by
  have inside : id.index < marks.size := size ▸ index_lt_of_contains live
  unfold marked
  rw [Array.getD_eq_getD_getElem?, Array.getElem?_setIfInBounds, Array.getD_eq_getD_getElem?]
  by_cases same : other = id
  · subst same
    simp [inside]
  · have apart : id.index ≠ other.index := fun equal =>
      same (eq_of_index_eq otherLive live equal.symm)
    simp [apart, same]

theorem Reaches.of_contains (way : arena.Reaches root id) (live : arena.contains id = true) :
    arena.contains root = true := by
  rcases Relation.ReflTransGen.cases_head way with rfl | ⟨child, member, -⟩
  · exact live
  · exact contains_of_mem_children member

namespace Search

/-! ## Rounds -/

def start (arena : Arena) (root : NodeId) : Search :=
  let unmarked := Array.replicate arena.slots.size false
  enter ⟨[], unmarked, unmarked⟩ arena root

def leave (search : Search) (id : NodeId) (path : List Branch) : Search where
  path := path
  onPath := search.onPath.setIfInBounds id.index false
  left := search.left.setIfInBounds id.index true

def round (search : Search) (arena : Arena) : Option NodeId ⊕ Search :=
  match search.path with
  | [] => .inl none
  | ⟨id, []⟩ :: path => .inr (search.leave id path)
  | ⟨id, child :: rest⟩ :: path =>
    let passed := { search with path := ⟨id, rest⟩ :: path }
    if arena.contains child then
      if marked search.onPath child then .inl (some child)
      else if marked search.left child then .inr passed
      else .inr (passed.enter arena child)
    else .inr passed

inductive Ends (arena : Arena) : Search → Option NodeId → Prop where
  | now {search : Search} {outcome : Option NodeId} (last : search.round arena = .inl outcome) :
      Ends arena search outcome
  | later {search next : Search} {outcome : Option NodeId} (onward : search.round arena = .inr next)
      (ends : Ends arena next outcome) : Ends arena search outcome

theorem searchCycle_succ (arena : Arena) (rounds : Nat) (search : Search) :
    arena.searchCycle (rounds + 1) search =
      match search.round arena with
      | .inl outcome => outcome
      | .inr next => arena.searchCycle rounds next := by
  rcases search with ⟨_ | ⟨⟨id, _ | ⟨child, rest⟩⟩, path⟩, onPath, left⟩
  · rfl
  · rfl
  · conv_lhs => unfold searchCycle
    unfold round marked
    by_cases live : arena.contains child = true
    · cases met : onPath.getD child.index false <;> cases done : left.getD child.index false <;>
        simp [live, met, done]
    · simp [live]

/-! ## What every round keeps -/

def Looks (arena : Arena) (left : Array Bool) (branch : Branch) (below : Option NodeId) : Prop :=
  ∀ child ∈ arena.children branch.node, arena.contains child = true →
    child ∈ branch.rest ∨ marked left child = true ∨ below = some child

structure OnWay (arena : Arena) (root : NodeId) (left : Array Bool) (branch : Branch) : Prop where
  live : arena.contains branch.node = true
  reached : arena.Reaches root branch.node
  unleft : marked left branch.node = false
  rest : ∀ child ∈ branch.rest, child ∈ arena.children branch.node

theorem OnWay.pass {left : Array Bool} {child : NodeId} {rest : List NodeId}
    (onWay : OnWay arena root left ⟨id, child :: rest⟩) : OnWay arena root left ⟨id, rest⟩ :=
  { onWay with rest := fun other inside => onWay.rest other (List.mem_cons_of_mem child inside) }

structure Sound (search : Search) (arena : Arena) (root : NodeId) : Prop where
  onPath_size : search.onPath.size = arena.slots.size
  left_size : search.left.size = arena.slots.size
  onWay : ∀ branch ∈ search.path, OnWay arena root search.left branch
  nodup : (search.path.map Branch.node).Nodup
  onPath_iff : ∀ id, arena.contains id = true →
    (marked search.onPath id = true ↔ id ∈ search.path.map Branch.node)
  looks : ∀ last ∈ search.path.head?, Looks arena search.left last none
  chain : search.path.IsChain fun lower upper =>
    lower.node ∈ arena.children upper.node ∧ Looks arena search.left upper (some lower.node)
  closed : ∀ id, arena.contains id = true → marked search.left id = true →
    ∀ child ∈ arena.children id, arena.contains child = true → marked search.left child = true
  acyclic : ∀ id, arena.contains id = true → marked search.left id = true → ¬ arena.Below id id
  begun : root ∈ search.path.map Branch.node ∨ marked search.left root = true

namespace Sound

variable {search : Search} {branch : Branch} {path : List Branch} {child : NodeId}
  {rest : List NodeId} {onPath left : Array Bool}

theorem left_of_reaches (sound : search.Sound arena root) (left : marked search.left id = true)
    (way : arena.Reaches id other) (otherLive : arena.contains other = true) :
    marked search.left other = true := by
  induction way with
  | refl => exact left
  | tail _ member induction =>
    have parent := contains_of_mem_children member
    exact sound.closed _ parent (induction parent) _ member otherLive

theorem reaches_last (sound : Sound ⟨branch :: path, onPath, left⟩ arena root)
    (member : id ∈ (branch :: path).map Branch.node) : arena.Reaches id branch.node := by
  have chain := sound.chain
  clear sound
  induction path generalizing branch id with
  | nil =>
    rw [List.map_singleton, List.mem_singleton] at member
    rw [member]
    exact .refl
  | cons upper path induction =>
    rw [List.isChain_cons_cons] at chain
    rcases List.mem_cons.mp member with rfl | member
    · exact .refl
    · exact (induction member chain.2).tail chain.1.1

theorem below_of_met (sound : Sound ⟨⟨id, child :: rest⟩ :: path, onPath, left⟩ arena root)
    (live : arena.contains child = true) (met : marked onPath child = true) :
    arena.Reaches root child ∧ arena.Below child child := by
  have stands := (sound.onPath_iff child live).mp met
  have link : child ∈ arena.children id :=
    (sound.onWay ⟨id, child :: rest⟩ List.mem_cons_self).rest child List.mem_cons_self
  have around := Relation.TransGen.tail' (sound.reaches_last stands) link
  rcases List.mem_map.mp stands with ⟨other, member, rfl⟩
  exact ⟨(sound.onWay other member).reached, below_iff.mpr around⟩

theorem pass (sound : Sound ⟨⟨id, child :: rest⟩ :: path, onPath, left⟩ arena root)
    (done : arena.contains child = true → marked left child = true) :
    Sound ⟨⟨id, rest⟩ :: path, onPath, left⟩ arena root := by
  refine { sound with onWay := ?_, looks := ?_, chain := ?_ }
  · intro branch member
    rcases List.mem_cons.mp member with rfl | member
    · exact (sound.onWay ⟨id, child :: rest⟩ List.mem_cons_self).pass
    · exact sound.onWay branch (List.mem_cons_of_mem _ member)
  · rintro _ ⟨⟩ other member live
    rcases sound.looks _ rfl other member live with ahead | behind
    · rcases List.mem_cons.mp ahead with rfl | ahead
      · exact .inr (.inl (done live))
      · exact .inl ahead
    · exact .inr behind
  · cases path with
    | nil => exact .singleton _
    | cons upper path => exact List.isChain_cons_cons.mpr (List.isChain_cons_cons.mp sound.chain)

theorem enter (sound : Sound ⟨⟨id, child :: rest⟩ :: path, onPath, left⟩ arena root)
    (live : arena.contains child = true) (new : marked onPath child = false)
    (unleft : marked left child = false) :
    Sound (Search.enter ⟨⟨id, rest⟩ :: path, onPath, left⟩ arena child) arena root := by
  have first := sound.onWay ⟨id, child :: rest⟩ List.mem_cons_self
  have link : child ∈ arena.children id := first.rest child List.mem_cons_self
  have absent : child ∉ id :: path.map Branch.node := fun member => by
    rw [(sound.onPath_iff child live).mpr member] at new
    cases new
  constructor
  case onPath_size => exact (Array.size_setIfInBounds ..).trans sound.onPath_size
  case left_size => exact sound.left_size
  case onWay =>
    intro branch member
    rcases List.mem_cons.mp member with rfl | member
    · exact ⟨live, first.reached.tail link, unleft, fun other inside => by simpa using inside⟩
    · rcases List.mem_cons.mp member with rfl | member
      · exact first.pass
      · exact sound.onWay branch (List.mem_cons_of_mem _ member)
  case nodup => exact List.nodup_cons.mpr ⟨absent, sound.nodup⟩
  case onPath_iff =>
    intro other otherLive
    change marked (onPath.setIfInBounds child.index true) other = true ↔
      other ∈ child :: id :: path.map Branch.node
    rw [marked_set sound.onPath_size live otherLive, List.mem_cons]
    by_cases same : other = child
    · simp [same]
    · rw [if_neg same, sound.onPath_iff other otherLive]
      simp [same]
  case looks =>
    rintro _ ⟨⟩ other member -
    exact .inl (by simpa using member)
  case chain =>
    refine List.isChain_cons_cons.mpr ⟨⟨link, fun other member otherLive => ?_⟩, ?_⟩
    · rcases sound.looks _ rfl other member otherLive with ahead | behind
      · rcases List.mem_cons.mp ahead with rfl | ahead
        · exact .inr (.inr rfl)
        · exact .inl ahead
      · exact .inr (behind.imp_right nofun)
    · cases path with
      | nil => exact .singleton _
      | cons upper path => exact List.isChain_cons_cons.mpr (List.isChain_cons_cons.mp sound.chain)
  case closed => exact sound.closed
  case acyclic => exact sound.acyclic
  case begun => exact sound.begun.imp_left (List.mem_cons_of_mem _)

/-- A node whose children were all looked at is left. They were left before it, and it was not, so
no way leads from them back to it. -/
theorem leave (sound : Sound ⟨⟨id, []⟩ :: path, onPath, left⟩ arena root) :
    Sound (Search.leave ⟨⟨id, []⟩ :: path, onPath, left⟩ id path) arena root := by
  have first := sound.onWay ⟨id, []⟩ List.mem_cons_self
  have live : arena.contains id = true := first.live
  have absent : id ∉ path.map Branch.node := (List.nodup_cons.mp sound.nodup).1
  have childrenLeft (child : NodeId) (member : child ∈ arena.children id)
      (childLive : arena.contains child = true) : marked left child = true := by
    rcases sound.looks _ rfl child member childLive with ahead | left | onward
    · cases ahead
    · exact left
    · cases onward
  have left_iff (other : NodeId) (otherLive : arena.contains other = true) :
      marked (Search.leave ⟨⟨id, []⟩ :: path, onPath, left⟩ id path).left other = true ↔
        other = id ∨ marked left other = true := by
    change marked (left.setIfInBounds id.index true) other = true ↔ _
    rw [marked_set sound.left_size live otherLive]
    by_cases same : other = id <;> simp [same]
  constructor
  case onPath_size => exact (Array.size_setIfInBounds ..).trans sound.onPath_size
  case left_size => exact (Array.size_setIfInBounds ..).trans sound.left_size
  case onWay =>
    intro branch member
    have kept := sound.onWay branch (List.mem_cons_of_mem _ member)
    refine ⟨kept.live, kept.reached, ?_, kept.rest⟩
    rw [Bool.eq_false_iff, ne_eq, left_iff _ kept.live, not_or]
    refine ⟨?_, Bool.eq_false_iff.mp kept.unleft⟩
    rintro rfl
    exact absent (List.mem_map_of_mem member)
  case nodup => exact (List.nodup_cons.mp sound.nodup).2
  case onPath_iff =>
    intro other otherLive
    change marked (onPath.setIfInBounds id.index false) other = true ↔
      other ∈ path.map Branch.node
    rw [marked_set sound.onPath_size live otherLive]
    by_cases same : other = id
    · subst same
      simpa using absent
    · rw [if_neg same, sound.onPath_iff other otherLive]
      simp [same]
  case looks =>
    intro upper head child member childLive
    cases path with
    | nil => cases head
    | cons next path =>
      cases head
      rcases (List.isChain_cons_cons.mp sound.chain).1.2 child member childLive with
        ahead | left | same
      · exact .inl ahead
      · exact .inr (.inl ((left_iff child childLive).mpr (.inr left)))
      · exact .inr (.inl ((left_iff child childLive).mpr (.inl (Option.some.inj same).symm)))
  case chain =>
    refine (List.IsChain.tail sound.chain).imp fun lower upper linked =>
      ⟨linked.1, fun child member childLive => ?_⟩
    exact (linked.2 child member childLive).imp_right
      (Or.imp_left fun left => (left_iff child childLive).mpr (.inr left))
  case closed =>
    intro other otherLive left child member childLive
    rcases (left_iff other otherLive).mp left with rfl | left
    · exact (left_iff child childLive).mpr (.inr (childrenLeft child member childLive))
    · exact (left_iff child childLive).mpr
        (.inr (sound.closed other otherLive left child member childLive))
  case acyclic =>
    intro other otherLive left below
    rcases (left_iff other otherLive).mp left with rfl | left
    · rcases Relation.TransGen.head'_iff.mp (below_iff.mp below) with ⟨child, member, back⟩
      have childLive := Reaches.of_contains back live
      have again := sound.left_of_reaches (childrenLeft child member childLive) back live
      rw [first.unleft] at again
      cases again
    · exact sound.acyclic other otherLive left below
  case begun =>
    rcases sound.begun with onPath | left
    · rcases List.mem_cons.mp onPath with rfl | above
      · exact .inr ((left_iff root live).mpr (.inl rfl))
      · exact .inl above
    · by_cases rootLive : arena.contains root = true
      · exact .inr ((left_iff root rootLive).mpr (.inr left))
      · exact absurd (Reaches.of_contains first.reached live) rootLive

theorem start (live : arena.contains root = true) : (start arena root).Sound arena root := by
  have none (id : NodeId) : marked (Array.replicate arena.slots.size false) id = false :=
    getD_unmarked _ id.index
  constructor
  case onPath_size =>
    exact (Array.size_setIfInBounds ..).trans Array.size_replicate
  case left_size => exact Array.size_replicate
  case onWay =>
    intro branch member
    rw [List.mem_singleton.mp member]
    exact ⟨live, .refl, none root, fun child inside => by simpa using inside⟩
  case nodup => exact List.nodup_singleton root
  case onPath_iff =>
    intro id idLive
    change marked (Array.setIfInBounds _ root.index true) id = true ↔ id ∈ [root]
    rw [marked_set Array.size_replicate live idLive, none, List.mem_singleton]
    by_cases same : id = root <;> simp [same]
  case looks =>
    rintro _ ⟨⟩ child member -
    exact .inl (by simpa using member)
  case chain => exact .singleton _
  case closed =>
    intro id _ left
    exact absurd left (Bool.eq_false_iff.mp (none id))
  case acyclic =>
    intro id _ left
    exact absurd left (Bool.eq_false_iff.mp (none id))
  case begun => exact .inl (List.mem_singleton_self root)

end Sound

/-! ## How much lies ahead -/

def weight (slot : Slot) : Nat :=
  match slot.state with
  | .live node _ => node.childArray.size + 1
  | _ => 0

def unseen (arena : Arena) (seen : Nat → Bool) : Nat :=
  ∑ index : Fin arena.slots.toList.length,
    if seen index then 0 else weight arena.slots.toList[index]

def seen (search : Search) (index : Nat) : Bool :=
  search.onPath.getD index false || search.left.getD index false

def ahead (search : Search) (arena : Arena) : Nat :=
  (search.path.map fun branch => branch.rest.length + 1).sum + unseen arena search.seen

theorem searchRounds_eq (arena : Arena) : arena.searchRounds = arena.total weight + 1 := by
  have grows (slots : List Slot) (start : Nat) :
      slots.foldl (fun rounds slot =>
        match slot.state with
        | .live node _ => rounds + node.childArray.size + 1
        | _ => rounds) start = (slots.map weight).sum + start := by
    induction slots generalizing start with
    | nil => exact (Nat.zero_add start).symm
    | cons slot slots induction =>
      rw [List.foldl_cons, induction, List.map_cons, List.sum_cons]
      rcases slot with ⟨generation, ⟨node, owners⟩ | _ | _⟩ <;> simp only [weight] <;> omega
  rw [searchRounds, ← Array.foldl_toList]
  exact grows _ 1

theorem unseen_insert {seen later : Nat → Bool} (live : arena.contains id = true)
    (new : seen id.index = false) (here : later id.index = true)
    (elsewhere : ∀ index, index ≠ id.index → later index = seen index) :
    unseen arena later + ((arena.children id).size + 1) = unseen arena seen := by
  have inside : id.index < arena.slots.toList.length := index_lt_of_contains live
  rcases contains_iff.mp live with ⟨node, owners, found⟩
  have slot : weight arena.slots.toList[id.index] = (arena.children id).size + 1 := by
    have known := live?_eq_some_iff.mp found
    rw [← Array.getElem?_toList, List.getElem?_eq_getElem inside, Option.some.injEq] at known
    rw [known, children_of_live found]
    rfl
  let place : Fin arena.slots.toList.length := ⟨id.index, inside⟩
  have others : ∑ index ∈ Finset.univ.erase place,
        (if later index then 0 else weight arena.slots.toList[index]) =
      ∑ index ∈ Finset.univ.erase place,
        (if seen index then 0 else weight arena.slots.toList[index]) := by
    refine Finset.sum_congr rfl fun index member => ?_
    rw [elsewhere index fun same => Finset.ne_of_mem_erase member (Fin.ext same)]
  unfold unseen
  rw [← Finset.add_sum_erase _ _ (Finset.mem_univ place), others,
    ← Finset.add_sum_erase _ (fun index : Fin arena.slots.toList.length =>
      if seen index then 0 else weight arena.slots.toList[index]) (Finset.mem_univ place)]
  have before : seen place = false := new
  have after : later place = true := here
  have there : weight arena.slots.toList[place] = (arena.children id).size + 1 := slot
  simp only [before, after, there, ↓reduceIte, Bool.false_eq_true]
  omega

theorem ahead_enter {path : List Branch} {onPath left : Array Bool}
    (size : onPath.size = arena.slots.size) (live : arena.contains id = true)
    (new : marked onPath id = false) (unleft : marked left id = false) :
    (enter ⟨path, onPath, left⟩ arena id).ahead arena =
      (Search.mk path onPath left).ahead arena := by
  have inside : id.index < onPath.size := size ▸ index_lt_of_contains live
  have entered : unseen arena (enter ⟨path, onPath, left⟩ arena id).seen +
      ((arena.children id).size + 1) = unseen arena (Search.mk path onPath left).seen := by
    refine unseen_insert live (Bool.or_eq_false_iff.mpr ⟨new, unleft⟩) ?_ fun index other => ?_
    · simp [seen, enter, Array.getD_eq_getD_getElem?, inside]
    · simp [seen, enter, Array.getD_eq_getD_getElem?, other.symm]
  unfold ahead
  rw [← entered]
  change (((arena.children id).toList.length + 1) :: path.map _).sum + _ = _
  rw [List.sum_cons, Array.length_toList]
  change _ = (path.map _).sum + _
  omega

theorem ahead_pass (arena : Arena) (id child : NodeId) (rest : List NodeId) (path : List Branch)
    (onPath left : Array Bool) :
    (Search.mk (⟨id, rest⟩ :: path) onPath left).ahead arena <
      (Search.mk (⟨id, child :: rest⟩ :: path) onPath left).ahead arena := by
  have same : (Search.mk (⟨id, rest⟩ :: path) onPath left).seen =
      (Search.mk (⟨id, child :: rest⟩ :: path) onPath left).seen := rfl
  simp only [ahead, List.map_cons, List.sum_cons, List.length_cons, same]
  omega

theorem ahead_leave {path : List Branch} {onPath left : Array Bool}
    (size : left.size = arena.slots.size) (live : arena.contains id = true)
    (met : marked onPath id = true) :
    (leave ⟨⟨id, []⟩ :: path, onPath, left⟩ id path).ahead arena <
      (Search.mk (⟨id, []⟩ :: path) onPath left).ahead arena := by
  have inside : id.index < left.size := size ▸ index_lt_of_contains live
  have same : (leave ⟨⟨id, []⟩ :: path, onPath, left⟩ id path).seen =
      (Search.mk (⟨id, []⟩ :: path) onPath left).seen := by
    funext index
    by_cases here : index = id.index
    · subst here
      have before : onPath.getD id.index false = true := met
      simp only [seen, leave, before, Bool.true_or, Bool.or_eq_true]
      exact .inr (by simp [Array.getD_eq_getD_getElem?, inside])
    · simp [seen, leave, Array.getD_eq_getD_getElem?, Ne.symm here]
  rw [ahead, ahead, same]
  simp [leave]

/-- The search that begins has at most as many rounds ahead as the whole arena gives. -/
theorem ahead_start (live : arena.contains root = true) :
    (start arena root).ahead arena + 1 = arena.searchRounds := by
  have unmarked : unseen arena (seen ⟨[], Array.replicate arena.slots.size false,
      Array.replicate arena.slots.size false⟩) = arena.total weight := by
    simp only [unseen, seen, getD_unmarked, Bool.or_self, Bool.false_eq_true, ↓reduceIte]
    exact Fin.sum_univ_fun_getElem arena.slots.toList weight
  rw [searchRounds_eq, start, ahead_enter Array.size_replicate live (getD_unmarked _ _)
    (getD_unmarked _ _), ahead, unmarked]
  simp

/-! ## What a round does -/

def Tells (arena : Arena) (root : NodeId) : Option NodeId → Prop
  | none => ∀ id, arena.Reaches root id → arena.contains id = true → ¬ arena.Below id id
  | some id => arena.contains id = true ∧ arena.Reaches root id ∧ arena.Below id id

variable {search : Search}

theorem Sound.round_cases (sound : search.Sound arena root) :
    (∃ outcome, search.round arena = .inl outcome ∧ Tells arena root outcome) ∨
      ∃ next, search.round arena = .inr next ∧ next.Sound arena root ∧
        next.ahead arena < search.ahead arena := by
  rcases search with ⟨_ | ⟨⟨id, _ | ⟨child, rest⟩⟩, path⟩, onPath, left⟩
  · -- everything that the root leads to was left
    refine .inl ⟨none, rfl, fun id way live => ?_⟩
    have begun : marked left root = true := sound.begun.resolve_left List.not_mem_nil
    exact sound.acyclic id live (sound.left_of_reaches begun way live)
  · have first := sound.onWay ⟨id, []⟩ List.mem_cons_self
    have met := (sound.onPath_iff id first.live).mpr List.mem_cons_self
    exact .inr ⟨_, rfl, sound.leave, ahead_leave sound.left_size first.live met⟩
  · have passed := ahead_pass arena id child rest path onPath left
    by_cases live : arena.contains child = true
    · by_cases met : marked onPath child = true
      · exact .inl ⟨some child, by simp [Search.round, live, met], live,
          sound.below_of_met live met⟩
      by_cases done : marked left child = true
      · exact .inr ⟨_, by simp only [Search.round, live, met, done]; rfl,
          sound.pass fun _ => done, passed⟩
      · have new := Bool.eq_false_iff.mpr met
        have unleft := Bool.eq_false_iff.mpr done
        refine .inr ⟨_, by simp only [Search.round, live, met, done]; rfl,
          sound.enter live new unleft, ?_⟩
        rwa [ahead_enter sound.onPath_size live new unleft]
    · exact .inr ⟨_, by simp only [Search.round, live]; rfl,
        sound.pass fun here => absurd here live, passed⟩

theorem Sound.ends {rounds : Nat} (sound : search.Sound arena root)
    (enough : search.ahead arena < rounds) :
    Ends arena search (arena.searchCycle rounds search) ∧
      Tells arena root (arena.searchCycle rounds search) := by
  induction rounds generalizing search with
  | zero => cases enough
  | succ rounds induction =>
    rw [searchCycle_succ]
    rcases sound.round_cases with ⟨outcome, last, tells⟩ | ⟨next, onward, soundNext, fewer⟩
    · rw [last]
      exact ⟨.now last, tells⟩
    · rw [onward]
      rcases induction soundNext (by omega) with ⟨ends, tells⟩
      exact ⟨.later onward ends, tells⟩

end Search

/-- The search for a cycle comes to its end. It finds nothing just if no live node that the root
leads to is below itself, and a node that it finds is live, is one that the root leads to, and is
below itself. -/
theorem findCycle_decides_cycles (arena : Arena) (root : NodeId) :
    (arena.contains root = true →
      Search.Ends arena (.start arena root) (arena.findCycle root)) ∧
    (arena.findCycle root = none ↔
      ∀ id, arena.Reaches root id → arena.contains id = true → ¬ arena.Below id id) ∧
    (∀ id, arena.findCycle root = some id →
      arena.contains id = true ∧ arena.Reaches root id ∧ arena.Below id id) := by
  by_cases live : arena.contains root = true
  · have searched : arena.findCycle root =
        arena.searchCycle arena.searchRounds (.start arena root) := by
      simp only [findCycle, live, ↓reduceIte, Search.start]
    have enough : (Search.start arena root).ahead arena < arena.searchRounds :=
      Nat.lt_of_succ_le (Nat.le_of_eq (Search.ahead_start live))
    rcases (Search.Sound.start live).ends enough with ⟨ends, tells⟩
    rw [← searched] at ends tells
    refine ⟨fun _ => ends, ?_, fun id found => by rwa [found] at tells⟩
    cases found : arena.findCycle root with
    | none =>
      rw [found] at tells
      exact ⟨fun _ => tells, fun _ => rfl⟩
    | some id =>
      rw [found] at tells
      exact ⟨nofun, fun acyclic => absurd tells.2.2 (acyclic id tells.2.1 tells.1)⟩
  · have stale : arena.findCycle root = none := by simp only [findCycle, live, Bool.false_eq_true,
      ↓reduceIte]
    rw [stale]
    exact ⟨fun there => absurd there live,
      ⟨fun _ id way here => absurd (way.of_contains here) live, fun _ => rfl⟩, nofun⟩

end RecordGraph.Arena
