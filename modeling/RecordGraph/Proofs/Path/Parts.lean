import RecordGraph.Proofs.NameTable
import RecordGraph.Proofs.Path.Cursor
import RecordGraph.SymbolTable.Access

/-!
# The parts of a path

A path is a primary and the name of an attribute. It is read in these two parts, and it is brought
into being in the same two. Where its node is there already, the second way changes nothing but the
names.
-/

namespace RecordGraph.Path

open Builder (look)

/-! ## Steps that succeed -/

theorem look_eq_ok_iff {reader : Arena → Reader α} {start finish : Progress} {result : α} :
    look reader start = .ok result finish ↔
      ∃ place, reader start.arena start.cursor = .ok result place ∧
        finish = ⟨place, start.arena⟩ := by
  unfold look
  cases ran : (reader start.arena).run start.cursor with
  | ok found place =>
    rw [show reader start.arena start.cursor = .ok found place from ran]
    constructor
    · rintro ⟨⟩
      exact ⟨place, rfl, rfl⟩
    · rintro ⟨_, ⟨⟩, rfl⟩
      rfl
  | error failure place =>
    rw [show reader start.arena start.cursor = .error failure place from ran]
    simp

theorem change_eq_ok_iff {action : Arena → α × Arena} {start finish : Progress} {result : α} :
    Builder.change action start = .ok result finish ↔
      result = (action start.arena).1 ∧ finish = ⟨start.cursor, (action start.arena).2⟩ := by
  change EStateM.Result.ok (action start.arena).1
    (Progress.mk start.cursor (action start.arena).2) = _ ↔ _
  constructor
  · rintro ⟨⟩
    exact ⟨rfl, rfl⟩
  · rintro ⟨rfl, rfl⟩
    rfl

theorem onFailure_eq_ok_iff {builder : Builder α} {action : Arena → Arena} {start finish : Progress}
    {result : α} :
    builder.onFailure action start = .ok result finish ↔ builder start = .ok result finish := by
  unfold Builder.onFailure
  cases builder start with
  | ok found later => exact Iff.rfl
  | error failure later => simp

section Follow

variable {table : SymbolTable} {create : Bool} {template : Option NodeId} {rounds : List Char}
  {place last : Option (NodeId × Nat)}

theorem followIndices_none {reached : Option NodeId} {start finish : Progress}
    (ran : followIndices table create template rounds none place start =
      .ok (reached, last) finish) : reached = none := by
  induction rounds generalizing start place with
  | nil =>
    cases ran
    rfl
  | cons _ rounds induction =>
    unfold followIndices at ran
    rcases bind_eq_ok_iff.mp ran with ⟨_, _, ⟨⟩, ran⟩
    split at ran
    · rcases bind_eq_ok_iff.mp ran with ⟨_, _, -, ran⟩
      rcases bind_eq_ok_iff.mp ran with ⟨index, _, -, ran⟩
      rcases bind_eq_ok_iff.mp ran with ⟨_, _, -, ran⟩
      exact induction ran
    · cases ran
      rfl

theorem followIndices_of_no_bracket {current : Option NodeId} {start : Progress}
    (other : start.cursor.rest.head? ≠ some '[') :
    followIndices table create template rounds current place start =
      .ok (current, place) start := by
  cases rounds with
  | nil => rfl
  | cons _ rounds =>
    unfold followIndices
    exact bind_eq_ok_iff.mpr ⟨_, start, rfl, by rw [if_neg other]; rfl⟩

/-- One index and what follows it lead to a node just if a child is found at the index, or made
there, and the rest leads there from it. -/
theorem followIndices_cons_eq_ok_iff {round : Char} {parent node : NodeId} {arena after : Arena}
    {start finish : Cursor} (bracket : start.rest.head? = some '[') :
    followIndices table create template (round :: rounds) (some parent) place ⟨start, arena⟩ =
        .ok (some node, last) ⟨finish, after⟩ ↔
      ∃ opened index indexed child reached roomy closed,
        Reader.advance start = .ok () opened ∧
        indexValue table arena (inner table arena) opened = .ok (some index) indexed ∧
        childAt table create template parent index ⟨indexed, arena⟩ =
          .ok (some child) ⟨reached, roomy⟩ ∧
        closeBracket table reached = .ok () closed ∧
        followIndices table create template rounds (some child) (some (parent, index))
          ⟨closed, roomy⟩ = .ok (some node, last) ⟨finish, after⟩ := by
  constructor
  · intro ran
    unfold followIndices at ran
    rcases bind_eq_ok_iff.mp ran with ⟨_, _, ⟨⟩, ran⟩
    rw [if_pos bracket] at ran
    rcases bind_eq_ok_iff.mp ran with ⟨_, _, looked, ran⟩
    rcases look_eq_ok_iff.mp looked with ⟨opened, advanced, rfl⟩
    rcases bind_eq_ok_iff.mp ran with ⟨index, _, looked, ran⟩
    rcases look_eq_ok_iff.mp looked with ⟨indexed, read, rfl⟩
    cases index with
    | none =>
      rcases bind_eq_ok_iff.mp ran with ⟨_, _, -, ran⟩
      cases followIndices_none ran
    | some index =>
      rcases bind_eq_ok_iff.mp ran with ⟨child, ⟨reached, roomy⟩, found, ran⟩
      rcases bind_eq_ok_iff.mp ran with ⟨_, _, looked, onward⟩
      rcases look_eq_ok_iff.mp looked with ⟨closed, ended, rfl⟩
      cases child with
      | none => cases followIndices_none onward
      | some child =>
        exact ⟨opened, index, indexed, child, reached, roomy, closed, advanced, read, found, ended,
          onward⟩
  · rintro ⟨opened, index, indexed, child, reached, roomy, closed, advanced, read, found, ended,
      onward⟩
    unfold followIndices
    refine bind_eq_ok_iff.mpr ⟨_, _, rfl, ?_⟩
    rw [if_pos bracket]
    refine bind_eq_ok_iff.mpr ⟨_, _, look_eq_ok_iff.mpr ⟨_, advanced, rfl⟩, ?_⟩
    refine bind_eq_ok_iff.mpr ⟨_, _, look_eq_ok_iff.mpr ⟨_, read, rfl⟩, ?_⟩
    refine bind_eq_ok_iff.mpr ⟨_, _, found, ?_⟩
    exact bind_eq_ok_iff.mpr ⟨_, _, look_eq_ok_iff.mpr ⟨_, ended, rfl⟩, onward⟩

end Follow

theorem buildIndices_eq_ok_iff {table : SymbolTable} {create : Bool} {origin : NodeId}
    {start finish : Progress} {reached : Option NodeId} :
    buildIndices table create none origin start = .ok reached finish ↔
      ∃ last, followIndices table create none start.cursor.rest (some origin) none start =
        .ok (reached, last) finish := by
  unfold buildIndices
  constructor
  · intro ran
    rcases bind_eq_ok_iff.mp ran with ⟨_, _, ⟨⟩, ran⟩
    rcases bind_eq_ok_iff.mp ran with ⟨⟨current, last⟩, _, followed, ⟨⟩⟩
    exact ⟨last, followed⟩
  · rintro ⟨last, followed⟩
    exact bind_eq_ok_iff.mpr ⟨_, _, rfl, bind_eq_ok_iff.mpr ⟨_, _, followed, rfl⟩⟩

theorem buildIndices_of_no_bracket {table : SymbolTable} {create : Bool} {template : Option NodeId}
    {origin : NodeId} {start : Progress} (other : start.cursor.rest.head? ≠ some '[') :
    buildIndices table create template origin start = .ok (some origin) start := by
  unfold buildIndices
  refine bind_eq_ok_iff.mpr ⟨_, _, rfl, bind_eq_ok_iff.mpr
    ⟨_, _, followIndices_of_no_bracket other, ?_⟩⟩
  cases template <;> rfl

/-! ## What is there is left as it is -/

section Found

variable {table : SymbolTable} {arena : Arena} {node : NodeId} {finish : Cursor} {create : Bool}

theorem childAt_of_child? {parent child : NodeId} {index : Nat} {cursor : Cursor}
    (found : arena.child? parent index = some child) (template : Option NodeId) :
    childAt table create template parent index ⟨cursor, arena⟩ =
      .ok (some child) ⟨cursor, arena⟩ := by
  have inside : index < arena.childCount parent := (Array.getElem?_eq_some_iff.mp found).1
  have room : makeRoom table template parent index ⟨cursor, arena⟩ = .ok () ⟨cursor, arena⟩ := by
    unfold makeRoom
    refine bind_eq_ok_iff.mpr ⟨_, _, rfl, ?_⟩
    simp only [inside, ↓reduceIte]
    rfl
  unfold childAt
  rw [← found]
  split
  · exact bind_eq_ok_iff.mpr ⟨_, _, room, rfl⟩
  · rfl

/-- A child that is found where room may be made was there, or stands in the room that was made. -/
theorem childAt_cases {template : Option NodeId} {parent child : NodeId} {index : Nat}
    {start finish : Cursor} {after : Arena}
    (ran : childAt table true template parent index ⟨start, arena⟩ =
      .ok (some child) ⟨finish, after⟩) :
    finish = start ∧ after.child? parent index = some child ∧
      (after = arena ∨ after = fillUp table.registry template parent index
        (index + 1 - arena.childCount parent) (arena.ensureChildren parent)) := by
  unfold childAt at ran
  rw [if_pos rfl] at ran
  rcases bind_eq_ok_iff.mp ran with ⟨_, ⟨place, roomy⟩, made, ran⟩
  rcases bind_eq_ok_iff.mp ran with ⟨_, _, ⟨⟩, ran⟩
  have given : EStateM.Result.ok (ε := Error) (roomy.child? parent index)
      (Progress.mk place roomy) = .ok (some child) ⟨finish, after⟩ := ran
  injection given with found ended
  cases ended
  unfold makeRoom at made
  rcases bind_eq_ok_iff.mp made with ⟨_, _, ⟨⟩, made⟩
  split at made
  · cases made
    exact ⟨rfl, found, .inl rfl⟩
  · split at made
    · cases made
      exact ⟨rfl, found, .inr rfl⟩
    · cases made

theorem followIndices_of_indices {rounds : List Char} {current : Option NodeId} {cursor : Cursor}
    (ran : indices table arena (inner table arena) rounds current cursor = .ok (some node) finish)
    (place : Option (NodeId × Nat)) :
    ∃ last, followIndices table create none rounds current place ⟨cursor, arena⟩ =
      .ok (some node, last) ⟨finish, arena⟩ := by
  induction rounds generalizing current cursor place with
  | nil =>
    cases ran
    exact ⟨place, rfl⟩
  | cons _ rounds induction =>
    cases current with
    | none => cases indices_none ran
    | some parent =>
      by_cases bracket : cursor.rest.head? = some '['
      · rcases (indices_cons_eq_ok_iff bracket).mp ran with
          ⟨opened, index, indexed, closed, child, advanced, read, ended, found, onward⟩
        rcases induction onward (some (parent, index)) with ⟨last, followed⟩
        exact ⟨last, (followIndices_cons_eq_ok_iff bracket).mpr ⟨opened, index, indexed, child,
          indexed, arena, closed, advanced, read, childAt_of_child? found none, ended, followed⟩⟩
      · rw [indices_of_no_bracket bracket] at ran
        cases ran
        exact ⟨place, followIndices_of_no_bracket bracket⟩

theorem buildPrimary_of_primary {cursor : Cursor}
    (ran : primary table arena (inner table arena) cursor = .ok (some node) finish) :
    buildPrimary table create none ⟨cursor, arena⟩ = .ok (some node, none) ⟨finish, arena⟩ := by
  unfold primary at ran
  rcases bind_eq_ok_iff.mp ran with ⟨key, place, read, ran⟩
  split at ran
  · cases ran
  · rename_i named
    rcases bind_eq_ok_iff.mp ran with ⟨_, _, ⟨⟩, ran⟩
    cases bound : table.lookup key with
    | none =>
      rw [bound] at ran
      cases indices_none ran
    | some origin =>
      rw [bound] at ran
      unfold buildPrimary
      refine bind_eq_ok_iff.mpr ⟨_, _, look_eq_ok_iff.mpr ⟨_, read, rfl⟩, ?_⟩
      rw [if_neg named, bound]
      exact bind_eq_ok_iff.mpr
        ⟨_, _, buildIndices_eq_ok_iff.mpr (followIndices_of_indices ran none), rfl⟩

end Found

/-! ## A path as a node and the name of an attribute -/

def attrName (table : SymbolTable) (arena : Arena) : Reader (Option String) := do
  if (← Reader.peek) = some '.' then
    Reader.advance
    let name ← identifier table arena (inner table arena)
    return some name
  else return none

def ReadsAs (table : SymbolTable) (arena : Arena) (start : Cursor) (node : NodeId)
    (name : Option String) : Prop :=
  ∃ place finish, primary table arena (inner table arena) start = .ok (some node) place ∧
    attrName table arena place = .ok name finish ∧ (table.robust = true ∨ finish.rest = [])

section Parts

variable {table : SymbolTable} {arena : Arena} {create : Bool}

open SymbolTable (destinationAttr)

theorem destinationAttr_some {name : String} (named : name ≠ "") (create : Bool) :
    destinationAttr arena (some name) create =
      if create then internAttr name arena else (arena.names.query name, arena) := by
  unfold destinationAttr
  split
  · rename_i none
    cases none
  · rename_i empty
    cases empty
    exact absurd rfl named
  · rename_i same
    cases same
    rfl

theorem attrPart_eq_ok_iff {start finish : Cursor} {attr : Option AttrId} :
    attrPart table arena (inner table arena) start = .ok attr finish ↔
      ∃ name, attrName table arena start = .ok name finish ∧
        attr = (destinationAttr arena name false).1 := by
  have same : attrPart table arena (inner table arena) = (do
      let name ← attrName table arena
      return (destinationAttr arena name false).1) := by
    unfold attrPart attrName
    rw [bind_assoc]
    congr 1
    funext next
    by_cases point : next = some '.'
    · rw [if_pos point, if_pos point, bind_assoc]
      congr 1
      funext _
      rw [bind_assoc]
      congr 1
      funext name
      rw [pure_bind]
      split
      · rename_i empty
        rw [empty]
        rfl
      · rename_i named
        rw [destinationAttr_some named]
        rfl
    · rw [if_neg point, if_neg point]
      rfl
  rw [same, bind_eq_ok_iff]
  constructor
  · rintro ⟨name, place, read, ⟨⟩⟩
    exact ⟨name, read, rfl⟩
  · rintro ⟨name, read, rfl⟩
    exact ⟨name, finish, read, rfl⟩

theorem attrName_of_other {start : Cursor} (other : start.rest.head? ≠ some '.') :
    attrName table arena start = .ok none start := by
  unfold attrName
  refine bind_eq_ok_iff.mpr ⟨_, _, rfl, ?_⟩
  rw [if_neg other]
  rfl

theorem attrName_of_point {start finish : Cursor} {name : Option String}
    (point : start.rest.head? = some '.') :
    attrName table arena start = .ok name finish ↔
      ∃ text, identifier table arena (inner table arena) start.next = .ok text finish ∧
        name = some text := by
  unfold attrName
  constructor
  · intro ran
    rcases bind_eq_ok_iff.mp ran with ⟨_, _, ⟨⟩, ran⟩
    rw [if_pos point] at ran
    rcases bind_eq_ok_iff.mp ran with ⟨_, _, ⟨⟩, ran⟩
    rcases bind_eq_ok_iff.mp ran with ⟨text, _, read, ⟨⟩⟩
    exact ⟨text, read, rfl⟩
  · rintro ⟨text, read, rfl⟩
    refine bind_eq_ok_iff.mpr ⟨_, _, rfl, ?_⟩
    rw [if_pos point]
    exact bind_eq_ok_iff.mpr ⟨_, _, rfl, bind_eq_ok_iff.mpr ⟨_, _, read, rfl⟩⟩

theorem buildAttr_eq_ok_iff {start finish : Progress} {attr : Option AttrId} :
    buildAttr table create start = .ok attr finish ↔
      ∃ name place, attrName table start.arena start.cursor = .ok name place ∧
        attr = (destinationAttr start.arena name create).1 ∧
          finish = ⟨place, (destinationAttr start.arena name create).2⟩ := by
  unfold buildAttr
  by_cases point : start.cursor.rest.head? = some '.'
  · simp only [attrName_of_point point]
    constructor
    · intro ran
      rcases bind_eq_ok_iff.mp ran with ⟨_, _, ⟨⟩, ran⟩
      rw [if_pos point] at ran
      rcases bind_eq_ok_iff.mp ran with ⟨_, _, looked, ran⟩
      rcases look_eq_ok_iff.mp looked with ⟨_, ⟨⟩, rfl⟩
      rcases bind_eq_ok_iff.mp ran with ⟨text, _, looked, ran⟩
      rcases look_eq_ok_iff.mp looked with ⟨place, read, rfl⟩
      split at ran
      · rename_i empty
        cases ran
        exact ⟨some text, place, ⟨text, read, rfl⟩, by rw [empty]; exact ⟨rfl, rfl⟩⟩
      · rename_i named
        refine ⟨some text, place, ⟨text, read, rfl⟩, ?_⟩
        rw [destinationAttr_some named]
        split at ran
        · rename_i creating
          rw [if_pos creating]
          exact change_eq_ok_iff.mp ran
        · rename_i reading
          rw [if_neg reading]
          cases ran
          exact ⟨rfl, rfl⟩
    · rintro ⟨_, place, ⟨text, read, rfl⟩, rfl, rfl⟩
      refine bind_eq_ok_iff.mpr ⟨_, _, rfl, ?_⟩
      rw [if_pos point]
      refine bind_eq_ok_iff.mpr ⟨_, _, look_eq_ok_iff.mpr ⟨_, rfl, rfl⟩, ?_⟩
      refine bind_eq_ok_iff.mpr ⟨_, _, look_eq_ok_iff.mpr ⟨_, read, rfl⟩, ?_⟩
      split
      · rename_i empty
        rw [empty]
        rfl
      · rename_i named
        rw [destinationAttr_some named]
        split <;> rfl
  · rw [attrName_of_other point]
    constructor
    · intro ran
      rcases bind_eq_ok_iff.mp ran with ⟨_, _, ⟨⟩, ran⟩
      rw [if_neg point] at ran
      cases ran
      exact ⟨none, _, rfl, rfl, rfl⟩
    · rintro ⟨_, _, ⟨⟩, rfl, rfl⟩
      refine bind_eq_ok_iff.mpr ⟨_, _, rfl, ?_⟩
      rw [if_neg point]
      rfl

theorem refused_eq_false_iff {cursor : Cursor} :
    (!table.robust && !cursor.rest.isEmpty) = false ↔ table.robust = true ∨ cursor.rest = [] := by
  cases table.robust <;> simp

theorem buildEnd_eq_ok_iff {start finish : Progress} {attr : Option AttrId} :
    buildEnd table create start = .ok attr finish ↔
      buildAttr table create start = .ok attr finish ∧
        (table.robust = true ∨ finish.cursor.rest = []) := by
  unfold buildEnd
  rw [← refused_eq_false_iff]
  constructor
  · intro ran
    rcases bind_eq_ok_iff.mp ran with ⟨_, _, named, ran⟩
    rcases bind_eq_ok_iff.mp ran with ⟨_, _, ⟨⟩, ran⟩
    split at ran
    · cases ran
    · rename_i accepted
      cases ran
      exact ⟨named, Bool.eq_false_iff.mpr accepted⟩
  · rintro ⟨named, accepted⟩
    refine bind_eq_ok_iff.mpr ⟨_, _, named, bind_eq_ok_iff.mpr ⟨_, _, rfl, ?_⟩⟩
    rw [if_neg (Bool.eq_false_iff.mp accepted)]
    rfl

/-- A path that begins with a primary names the node of the primary and the attribute behind it. -/
theorem path_of_parts {start place finish : Cursor} {node : Option NodeId} {attr : Option AttrId}
    (more : start.rest ≠ []) (direct : beginsIndirection start.rest = false)
    (reached : primary table arena (inner table arena) start = .ok node place)
    (named : attrPart table arena (inner table arena) place = .ok attr finish)
    (accepted : table.robust = true ∨ finish.rest = []) :
    path table arena false start = .ok ⟨node, attr⟩ finish := by
  have some : ¬ start.rest.isEmpty = true := fun empty => more (List.isEmpty_iff.mp empty)
  refine bind_eq_ok_iff.mpr ⟨_, _, rfl, ?_⟩
  rw [if_neg some, if_neg (Bool.eq_false_iff.mp direct)]
  refine bind_eq_ok_iff.mpr ⟨_, _, reached, bind_eq_ok_iff.mpr ⟨_, _, named, ?_⟩⟩
  refine bind_eq_ok_iff.mpr ⟨_, _, rfl, ?_⟩
  have admitted : ¬ (!table.robust && !finish.rest.isEmpty) = true :=
    Bool.eq_false_iff.mp (refused_eq_false_iff.mpr accepted)
  rw [Bool.not_false, Bool.true_and, if_neg admitted]
  rfl

theorem path_eq_ok_iff {start finish : Cursor} {node : NodeId} {attr : Option AttrId}
    (direct : beginsIndirection start.rest = false) :
    path table arena false start = .ok ⟨some node, attr⟩ finish ↔
      ∃ place name, primary table arena (inner table arena) start = .ok (some node) place ∧
        attrName table arena place = .ok name finish ∧
          (table.robust = true ∨ finish.rest = []) ∧
            attr = (destinationAttr arena name false).1 := by
  constructor
  · intro ran
    unfold path pathOver at ran
    rcases bind_eq_ok_iff.mp ran with ⟨_, _, ⟨⟩, ran⟩
    split at ran
    · cases ran
    · rw [if_neg (Bool.eq_false_iff.mp direct)] at ran
      rcases bind_eq_ok_iff.mp ran with ⟨_, place, reached, ran⟩
      rcases bind_eq_ok_iff.mp ran with ⟨_, _, named, ran⟩
      rcases bind_eq_ok_iff.mp ran with ⟨_, _, ⟨⟩, ran⟩
      split at ran
      · cases ran
      · rename_i accepted
        cases ran
        rcases attrPart_eq_ok_iff.mp named with ⟨name, read, same⟩
        have accepted := refused_eq_false_iff.mp (by simpa using accepted)
        exact ⟨place, name, reached, read, accepted, same⟩
  · rintro ⟨place, name, reached, read, accepted, rfl⟩
    have more : start.rest ≠ [] := by
      rcases start with ⟨position, _ | ⟨first, rest⟩⟩
      · cases reached
      · nofun
    exact path_of_parts more direct reached (attrPart_eq_ok_iff.mpr ⟨name, read, rfl⟩) accepted

theorem destination_eq_ok_iff {start finish : Cursor} {node : Option NodeId}
    {name : Option String} :
    table.destination arena start = .ok (node, name) finish ↔
      ∃ place, primary table arena (inner table arena) start = .ok node place ∧
        attrName table arena place = .ok name finish ∧
          (table.robust = true ∨ finish.rest = []) := by
  have same : table.destination arena = (do
      let node ← primary table arena (inner table arena)
      let name ← attrName table arena
      let cursor ← getThe Cursor
      if !table.robust && !cursor.rest.isEmpty then throw (.trailingInput cursor.position)
      else return (node, name)) := by
    unfold SymbolTable.destination attrName
    simp only [bind_assoc]
    congr 1
    funext node
    congr 1
    funext next
    split
    · simp only [bind_assoc, map_eq_pure_bind]
    · rfl
  rw [same, ← refused_eq_false_iff]
  constructor
  · intro ran
    rcases bind_eq_ok_iff.mp ran with ⟨reached, place, primed, ran⟩
    rcases bind_eq_ok_iff.mp ran with ⟨named, _, read, ran⟩
    rcases bind_eq_ok_iff.mp ran with ⟨_, _, ⟨⟩, ran⟩
    split at ran
    · cases ran
    · rename_i accepted
      cases ran
      exact ⟨place, primed, read, by simpa using accepted⟩
  · rintro ⟨place, primed, read, accepted⟩
    refine bind_eq_ok_iff.mpr ⟨_, _, primed, bind_eq_ok_iff.mpr ⟨_, _, read, ?_⟩⟩
    refine bind_eq_ok_iff.mpr ⟨_, _, rfl, ?_⟩
    rw [if_neg (by simpa using accepted)]
    rfl

variable {text : String} {node : NodeId} (direct : beginsIndirection text.toList = false)

include direct

theorem resolve_iff_readsAs :
    (∃ attr, resolve table arena text = .ok ⟨some node, attr⟩) ↔
      ∃ name, ReadsAs table arena (Cursor.ofText text) node name := by
  have path := @path_eq_ok_iff table arena (Cursor.ofText text)
  constructor
  · rintro ⟨attr, resolved⟩
    unfold resolve at resolved
    cases ran : (Path.path table arena false).run (Cursor.ofText text) with
    | error failure place =>
      rw [ran] at resolved
      cases resolved
    | ok target finish =>
      rw [ran] at resolved
      cases resolved
      rcases (path direct).mp ran with ⟨place, name, reached, read, accepted, -⟩
      exact ⟨name, place, finish, reached, read, accepted⟩
  · rintro ⟨name, place, finish, reached, read, accepted⟩
    have ran : (Path.path table arena false).run (Cursor.ofText text) = .ok ⟨some node, _⟩ finish :=
      (path direct).mpr ⟨place, name, reached, read, accepted, rfl⟩
    exact ⟨_, by rw [resolve, ran]⟩

/-- Where a path names a node, going over it with leave to create changes nothing but the names. -/
theorem build_of_readsAs {name : Option String}
    (reads : ReadsAs table arena (Cursor.ofText text) node name) (create : Bool) :
    build table arena text none create =
      (.ok ⟨some node, (destinationAttr arena name create).1⟩, table,
        (destinationAttr arena name create).2) := by
  rcases reads with ⟨place, finish, reached, read, accepted⟩
  have named : buildAttr table create ⟨place, arena⟩ =
      .ok (destinationAttr arena name create).1 ⟨finish, (destinationAttr arena name create).2⟩ :=
    buildAttr_eq_ok_iff.mpr ⟨name, finish, read, rfl, rfl⟩
  have ran : buildPath table create none ⟨Cursor.ofText text, arena⟩ =
      .ok (⟨some node, (destinationAttr arena name create).1⟩, none)
        ⟨finish, (destinationAttr arena name create).2⟩ := by
    unfold buildPath
    refine bind_eq_ok_iff.mpr ⟨_, _, buildPrimary_of_primary reached, ?_⟩
    refine bind_eq_ok_iff.mpr ⟨_, _, onFailure_eq_ok_iff.mpr
      (buildEnd_eq_ok_iff.mpr ⟨named, accepted⟩), ?_⟩
    rfl
  unfold build
  rw [if_neg (Bool.eq_false_iff.mp direct), ran]

end Parts

end RecordGraph.Path
