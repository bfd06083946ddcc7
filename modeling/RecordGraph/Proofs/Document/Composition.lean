import RecordGraph.Proofs.Document.Joining
import RecordGraph.Proofs.Document.Loading
import RecordGraph.Proofs.Document.Rooted
import RecordGraph.Proofs.Document.Warnings

/-!
# Two documents, one behind the other

Nothing of a document waits for the next one: no open block, no attribute that is half read, no
quote. A text that is complete and loads without warnings is loaded alike by itself and in front of
another text. All that it leaves behind besides the arena is its latest record, which only an
opening brace would ask for, and the number of the line.
-/

namespace RecordGraph
namespace Document

/-! ## Items at moved places -/

section

variable {lines : Nat} {tail : List Char} {options : Options} {cursor : Cursor}

theorem Cursor.recover_moved (rounds : List Char) (cursor : Cursor) :
    (cursor.moved lines []).recover rounds = (cursor.recover rounds).moved lines [] := by
  induction rounds generalizing cursor with
  | nil => rfl
  | cons round rounds induction =>
    have ended {test : Char → Bool} (cursor : Cursor) :
        (cursor.moved lines []).skip test = (cursor.skip test).moved lines [] :=
      skip_moved (.inl Text.stops_nil)
    have alike {cursor : Cursor} : (cursor.moved lines []).isAt ',' = cursor.isAt ',' :=
      isAt_moved (.inl rfl) (by decide)
    simp only [recover, ended, alike]
    split
    · rename_i stands
      rw [next_moved (ne_nil_of_isAt stands), induction]
    · rfl

theorem Item.ofRecord_moved (joins : Joins cursor.rest tail)
    (sound : tail = [] ∨ ∀ problem, (ofRecord options cursor).1 ≠ .malformed problem) :
    ofRecord options (cursor.moved lines tail) =
      ((ofRecord options cursor).1, (ofRecord options cursor).2.moved lines tail) := by
  have mirrored : (Scanner.record options).run (cursor.moved lines tail) =
      Scanner.shifted lines tail ((Scanner.record options).run cursor) :=
    Scanner.mirrors_record options joins
  unfold ofRecord at sound ⊢
  rw [mirrored]
  cases ran : (Scanner.record options).run cursor with
  | ok found later => rfl
  | error problem later =>
    rw [ran] at sound
    rcases sound with rfl | sound
    · simp only [Scanner.shifted, Cursor.recover_moved]
      simp [Cursor.moved]
    · exact absurd rfl (sound problem)

theorem Item.begun_moved {first : Char} {others : List Char} {line : Nat}
    (joins : Joins (first :: others) tail)
    (sound : tail = [] ∨
      ∀ problem, (begun options ⟨line, first :: others⟩ first).1 ≠ .malformed problem) :
    begun options (Cursor.moved lines tail ⟨line, first :: others⟩) first =
      ((begun options ⟨line, first :: others⟩ first).1,
        (begun options ⟨line, first :: others⟩ first).2.moved lines tail) := by
  have ahead : (Cursor.mk line (first :: others)).rest ≠ [] := List.cons_ne_nil _ _
  by_cases ordinary : first ∈ itemSigns
  · simp only [itemSigns, List.mem_cons, List.not_mem_nil, or_false] at ordinary
    rcases ordinary with rfl | rfl | rfl | rfl | rfl | rfl
    · exact congrArg (Prod.mk Item.nothing) (Cursor.skip_moved (.inl (joins.stops rfl)))
    · exact congrArg (Prod.mk Item.nothing) (Cursor.next_moved ahead)
    · exact congrArg (Prod.mk Item.opening) (Cursor.next_moved ahead)
    · exact congrArg (Prod.mk Item.opening) (Cursor.next_moved ahead)
    · exact congrArg (Prod.mk Item.closing) (Cursor.next_moved ahead)
    · exact congrArg (Prod.mk Item.closing) (Cursor.next_moved ahead)
  · rw [begun_ordinary options _ ordinary] at sound ⊢
    rw [begun_ordinary options _ ordinary]
    exact ofRecord_moved joins sound

theorem Item.next?_moved {item : Item} {line : Nat} {later : Cursor}
    (joins : Joins cursor.rest tail) (sound : tail = [] ∨ ∀ problem, item ≠ .malformed problem)
    (next : Item.next? options cursor = some (item, line, later)) :
    Item.next? options (cursor.moved lines tail) =
      some (item, line + lines, later.moved lines tail) := by
  rcases next?_eq_some_iff.mp next with ⟨first, others, front, visible, begins⟩
  have behind := (cursor.reaches_skip isGapOrLineEnd).suffix
  rw [front] at behind
  have skipped : (cursor.moved lines tail).skip isGapOrLineEnd =
      (Cursor.mk line (first :: others)).moved lines tail := by
    rw [← front]
    exact Cursor.skip_moved (.inr ⟨first, behind.mem List.mem_cons_self, visible⟩)
  refine next?_eq_some_iff.mpr ⟨first, others ++ tail, skipped, visible, ?_⟩
  have moved := @begun_moved lines tail options first others line (joins.suffix behind)
    (by rw [begins]; exact sound)
  rw [begins] at moved
  exact moved

end

/-! ## Warnings at moved places -/

def Warning.lowered (lines : Nat) (warning : Warning) : Warning :=
  .on (warning.line + lines) warning.problem

theorem Warning.lowered_on (lines line : Nat) (problem : Problem) :
    (Warning.on line problem).lowered lines = .on (line + lines) problem := by
  simp only [lowered, on, Warning.mk.injEq, and_true]
  omega

namespace Load

def lowered (lines : Nat) (load : Load) : Load :=
  { load with warnings := load.warnings.map (Warning.lowered lines) }

variable {registry : Registry} {options : Options}

theorem add_lowered (lines : Nat) (load : Load) (line : Nat) (item : Item) :
    (load.lowered lines).add registry (line + lines) item =
      (load.add registry line item).lowered lines := by
  rcases add_warnings registry load item with ⟨after, problems, same, -⟩
  have here : load.add registry line item =
      { after with warnings := load.warnings ++ problems.map (Warning.on line) } :=
    same line load.warnings
  rw [lowered, same, here]
  simp [lowered, Warning.lowered_on, Function.comp_def]

theorem finish_lowered (lines : Nat) (load : Load) (line : Nat) :
    (load.lowered lines).finish (line + lines) = (load.finish line).lowered lines := by
  by_cases closed : load.blocks.isEmpty = true
  · simp only [finish, lowered, closed, ↓reduceIte]
  · simp only [finish, lowered, closed, Bool.false_eq_true, ↓reduceIte, warn, Array.map_push,
      Warning.lowered_on]

/-- What is loaded does not depend on the numbers of the lines, and the warnings follow them. -/
theorem addAll_lowered (lines rounds : Nat) (cursor : Cursor) (load : Load) :
    (load.lowered lines).addAll registry options rounds (cursor.moved lines []) =
      (load.addAll registry options rounds cursor).lowered lines := by
  induction rounds generalizing cursor load with
  | zero => rfl
  | succ rounds induction =>
    unfold addAll
    cases next : Item.next? options cursor with
    | none =>
      have none : Item.next? options (cursor.moved lines []) = none := by
        rw [Item.next?_eq_none_iff] at next ⊢
        simpa [Cursor.moved] using next
      have skipped : ((cursor.moved lines []).skip isGapOrLineEnd).line =
          (cursor.skip isGapOrLineEnd).line + lines := by
        rw [Cursor.skip_moved (.inl Text.stops_nil), Cursor.moved]
      simp only [none, skipped, finish_lowered]
    | some found =>
      rcases found with ⟨item, line, later⟩
      simp only [Item.next?_moved (.inl rfl) (.inl rfl) next, add_lowered, induction]

theorem exists_addAll_warnings (rounds : Nat) (cursor : Cursor) (load : Load) :
    ∃ more, (load.addAll registry options rounds cursor).warnings = load.warnings ++ more := by
  induction rounds generalizing cursor load with
  | zero => exact ⟨#[], by simp [addAll]⟩
  | succ rounds induction =>
    unfold addAll
    split
    · unfold finish
      split
      · exact ⟨#[], by simp⟩
      · exact ⟨#[_], rfl⟩
    · rename_i item line later _
      rcases add_warnings registry load item with ⟨after, problems, same, -⟩
      rcases induction later (load.add registry line item) with ⟨more, grown⟩
      have here : load.add registry line item =
          { after with warnings := load.warnings ++ problems.map (Warning.on line) } :=
        same line load.warnings
      refine ⟨problems.map (Warning.on line) ++ more, ?_⟩
      rw [grown, here]
      simp

theorem addAll_warnings_le (rounds : Nat) (cursor : Cursor) (load : Load) :
    ∀ warning ∈ (load.addAll registry options rounds cursor).warnings, warning ∈ load.warnings ∨
      warning.line ≤ cursor.line + cursor.rest.count '\n' := by
  induction rounds generalizing cursor load with
  | zero => exact fun warning => .inl
  | succ rounds induction =>
    have skipped := (cursor.reaches_skip isGapOrLineEnd).line_le
    intro warning member
    unfold addAll at member
    split at member
    · unfold finish at member
      split at member
      · exact .inl member
      · rcases Array.mem_push.mp member with earlier | rfl
        · exact .inl earlier
        · exact .inr ((Nat.min_le_left _ _).trans skipped)
    · rename_i item line later next
      have ends := (Item.next?_takes next).1.end_line
      rcases induction later (load.add registry line item) warning member with added | behind
      · rcases add_warnings registry load item with ⟨after, problems, same, -⟩
        have here : load.add registry line item =
            { after with warnings := load.warnings ++ problems.map (Warning.on line) } :=
          same line load.warnings
        rw [here] at added
        rcases Array.mem_append.mp added with earlier | new
        · exact .inl earlier
        · rcases Array.mem_map.mp new with ⟨problem, -, rfl⟩
          rcases Item.next?_eq_some_iff.mp next with ⟨first, others, front, -⟩
          rw [front] at skipped
          exact .inr ((Nat.min_le_left _ _).trans skipped)
      · exact .inr (by omega)

theorem clean_of_addAll {rounds : Nat} {cursor : Cursor} {load : Load} {item : Item} {line : Nat}
    (clean : ((load.add registry line item).addAll registry options rounds cursor).warnings = #[]) :
    load.warnings = #[] ∧ ∀ problem, item ≠ .malformed problem := by
  rcases exists_addAll_warnings rounds cursor (load.add registry line item) with ⟨more, grown⟩
  rw [clean] at grown
  have none := (Array.append_eq_empty_iff.mp grown.symm).1
  rcases add_warnings registry load item with ⟨after, problems, same, -⟩
  have here : load.add registry line item =
      { after with warnings := load.warnings ++ problems.map (Warning.on line) } :=
    same line load.warnings
  constructor
  · rw [here] at none
    exact (Array.append_eq_empty_iff.mp none).1
  · rintro problem rfl
    simp [add, warn] at none

/-- Behind a complete text that was loaded without warnings, the load goes on as it stands. -/
theorem addAll_joined {rounds more : Nat} {cursor : Cursor} {load : Load} {behind : List Char}
    (complete : Complete cursor.rest) (enough : cursor.rest.length < rounds)
    (enoughMore : (cursor.rest ++ '\n' :: behind).length < more)
    (clean : (load.addAll registry options rounds cursor).warnings = #[]) :
    (load.addAll registry options rounds cursor).blocks = [] ∧
      load.addAll registry options more (cursor.moved 0 ('\n' :: behind)) =
        (load.addAll registry options rounds cursor).addAll registry options (behind.length + 1)
          ⟨cursor.line + cursor.rest.count '\n' + 1, behind⟩ := by
  induction rounds generalizing more cursor load with
  | zero => cases enough
  | succ rounds induction =>
    obtain ⟨more, rfl⟩ := Nat.exists_eq_succ_of_ne_zero (Nat.ne_zero_of_lt enoughMore)
    have joins : Joins cursor.rest ('\n' :: behind) := .inr ⟨complete, behind, rfl⟩
    cases next : Item.next? options cursor with
    | none =>
      have last : load.addAll registry options (rounds + 1) cursor =
          load.finish (cursor.skip isGapOrLineEnd).line := by
        simp only [addAll, next]
      rw [last] at clean ⊢
      have closed : load.blocks = [] := by
        by_contra opened
        simp [finish, opened, warn] at clean
      have done : load.finish (cursor.skip isGapOrLineEnd).line = load := by
        simp [finish, closed]
      rw [done]
      refine ⟨closed, ?_⟩
      have blank : ∀ character ∈ cursor.rest ++ ['\n'], isGapOrLineEnd character = true := by
        intro character member
        rcases List.mem_append.mp member with inside | feed
        · exact Item.next?_eq_none_iff.mp next character inside
        · rw [List.mem_singleton.mp feed]
          rfl
      have place : cursor.moved 0 ('\n' :: behind) =
          ⟨cursor.line, (cursor.rest ++ ['\n']) ++ behind⟩ := by
        simp [Cursor.moved]
      have shorter : behind.length < more + 1 := by
        simp only [List.length_append, List.length_cons] at enoughMore
        omega
      rw [place, addAll_blank blank,
        addAll_enough registry options load shorter (Nat.lt_succ_self _)]
      simp [List.count_append, Nat.add_assoc]
    | some found =>
      rcases found with ⟨item, line, later⟩
      have first : load.addAll registry options (rounds + 1) cursor =
          (load.add registry line item).addAll registry options rounds later := by
        simp only [addAll, next]
      rw [first] at clean ⊢
      have sound := (clean_of_addAll clean).2
      rcases Item.next?_takes next with ⟨reaches, fewer⟩
      have moved := @Item.next?_moved 0 _ _ _ _ _ _ joins (.inr sound) next
      have goes : load.addAll registry options (more + 1) (cursor.moved 0 ('\n' :: behind)) =
          (load.add registry line item).addAll registry options more
            (later.moved 0 ('\n' :: behind)) := by
        simp only [addAll, moved]
        rfl
      rw [goes, ← reaches.end_line]
      refine induction (complete.suffix reaches.suffix) (by omega) ?_ clean
      simp only [List.length_append] at enoughMore ⊢
      omega

/-! ## The latest record -/

end Load

/-- The first character that is no blank and no `;`, `}` or `>` and stands in no comment. -/
def firstVisible (comment : Bool) : List Char → Option Char
  | [] => none
  | character :: rest =>
    if comment then firstVisible (character != '\n') rest
    else if character = '#' then firstVisible true rest
    else if isGapOrLineEnd character || [';', '}', '>'].contains character then
      firstVisible false rest
    else some character

theorem firstVisible_blank (rest : List Char) :
    firstVisible false (rest.dropWhile isGapOrLineEnd) = firstVisible false rest := by
  induction rest with
  | nil => rfl
  | cons character rest induction =>
    cases blank : isGapOrLineEnd character with
    | false => rw [List.dropWhile_cons_of_neg (by simp [blank])]
    | true =>
      have noComment : character ≠ '#' := by
        rintro rfl
        cases blank
      rw [List.dropWhile_cons_of_pos blank, induction]
      simp [firstVisible, blank, noComment]

theorem firstVisible_comment (rest : List Char) :
    firstVisible false (rest.dropWhile (· != '\n')) = firstVisible true rest := by
  induction rest with
  | nil => rfl
  | cons character rest induction =>
    by_cases feed : character = '\n'
    · subst feed
      simp [firstVisible, isGapOrLineEnd]
    · have goes : (character != '\n') = true := bne_iff_ne.mpr feed
      rw [@List.dropWhile_cons_of_pos _ (· != '\n') _ _ goes, induction]
      simp [firstVisible, goes]

theorem Item.ofRecord_cases (options : Options) (cursor : Cursor) :
    (∃ record, (ofRecord options cursor).1 = .record record) ∨
      ∃ problem, (ofRecord options cursor).1 = .malformed problem := by
  unfold ofRecord
  split
  · exact .inl ⟨_, rfl⟩
  · exact .inr ⟨_, rfl⟩

theorem firstVisible_next {options : Options} {cursor later : Cursor} {item : Item} {line : Nat}
    (next : Item.next? options cursor = some (item, line, later)) :
    (item = .opening →
      firstVisible false cursor.rest = some '{' ∨ firstVisible false cursor.rest = some '<') ∧
    (item = .closing ∨ item = .nothing →
      firstVisible false later.rest = firstVisible false cursor.rest) := by
  rcases Item.next?_eq_some_iff.mp next with ⟨first, others, front, visible, begins⟩
  have same := firstVisible_blank cursor.rest
  rw [← cursor.rest_skip, front] at same
  rw [← same]
  by_cases ordinary : first ∈ itemSigns
  · simp only [itemSigns, List.mem_cons, List.not_mem_nil, or_false] at ordinary
    rcases ordinary with rfl | rfl | rfl | rfl | rfl | rfl <;> cases begins
    · refine ⟨fun opening => (by cases opening), fun _ => ?_⟩
      rw [Cursor.rest_skip, firstVisible_comment]
      rfl
    · exact ⟨fun opening => (by cases opening), fun _ => rfl⟩
    · exact ⟨fun _ => .inl rfl, fun other => by rcases other with other | other <;> cases other⟩
    · exact ⟨fun _ => .inr rfl, fun other => by rcases other with other | other <;> cases other⟩
    · exact ⟨fun opening => (by cases opening), fun _ => rfl⟩
    · exact ⟨fun opening => (by cases opening), fun _ => rfl⟩
  · rw [Item.begun_ordinary options _ ordinary] at begins
    have kind := Item.ofRecord_cases options ⟨line, first :: others⟩
    rw [begins] at kind
    rcases kind with ⟨record, rfl⟩ | ⟨problem, rfl⟩
    · exact ⟨fun opening => (by cases opening),
        fun other => by rcases other with other | other <;> cases other⟩
    · exact ⟨fun opening => (by cases opening),
        fun other => by rcases other with other | other <;> cases other⟩

/-- While no block is open and none is opened first, the latest record before a text is of no
account. -/
theorem Load.addAll_latest {registry : Registry} {options : Options} {rounds : Nat}
    {cursor : Cursor} {load : Load} (closed : load.blocks = [])
    (apart : firstVisible false cursor.rest ≠ some '{' ∧ firstVisible false cursor.rest ≠ some '<')
    (latest : Option NodeId) :
    (Load.addAll registry options rounds cursor { load with latest }).arena =
        (load.addAll registry options rounds cursor).arena ∧
      (Load.addAll registry options rounds cursor { load with latest }).warnings =
        (load.addAll registry options rounds cursor).warnings := by
  induction rounds generalizing cursor load with
  | zero => exact ⟨rfl, rfl⟩
  | succ rounds induction =>
    unfold addAll
    cases next : Item.next? options cursor with
    | none => simp [finish, closed]
    | some found =>
      rcases found with ⟨item, line, later⟩
      have visible := firstVisible_next next
      cases item with
      | record record =>
        have same : Load.add { load with latest } registry line (.record record) =
            load.add registry line (.record record) := by
          rcases load with ⟨arena, root, blocks, _, warnings⟩
          simp only [add, addRecord, warn]
          split <;> split <;> rfl
        simp only [same, and_self]
      | malformed problem => exact ⟨rfl, rfl⟩
      | opening =>
        rcases visible.1 rfl with opens | opens
        · exact absurd opens apart.1
        · exact absurd opens apart.2
      | closing =>
        have here : load.add registry line .closing = load.warn line .unmatchedClose := by
          simp [add, closeBlock, closed]
        have there : Load.add { load with latest } registry line .closing =
            { load.warn line .unmatchedClose with latest } := by
          simp [add, closeBlock, closed, warn]
        simp only [here, there]
        rw [← visible.2 (.inl rfl)] at apart
        exact @induction later (load.warn line .unmatchedClose) closed apart
      | nothing =>
        rw [← visible.2 (.inr rfl)] at apart
        exact induction closed apart

/-! ## The node that is loaded below -/

end Document

namespace Arena

variable {arena later : Arena} {id : NodeId}

theorem hasChildList_iff :
    arena.hasChildList id = true ↔
      ∃ node owners, arena.live? id = some (node, owners) ∧ node.children.isSome = true := by
  cases found : arena.live? id with
  | none => simp [hasChildList, node?, found]
  | some content =>
    rcases content with ⟨node, owners⟩
    simp [hasChildList, node?, found]

theorem hasChildList_modifyNode (listed : arena.hasChildList id = true) (other : NodeId)
    {change : Node → Node}
    (kept : ∀ node : Node, node.children.isSome = true → (change node).children.isSome = true) :
    (arena.modifyNode other change).hasChildList id = true := by
  rcases hasChildList_iff.mp listed with ⟨node, owners, found, children⟩
  rw [hasChildList_iff, live?_modifyNode]
  split
  · rename_i same
    rw [← same, found]
    exact ⟨_, owners, rfl, kept node children⟩
  · exact ⟨node, owners, found, children⟩

theorem hasChildList_retain (listed : arena.hasChildList id = true) (other : NodeId) :
    (arena.retain other).hasChildList id = true := by
  rcases hasChildList_iff.mp listed with ⟨node, owners, found, children⟩
  rw [hasChildList_iff, live?_retain]
  split
  · rename_i same
    rw [← same, found]
    exact ⟨node, owners + 1, rfl, children⟩
  · exact ⟨node, owners, found, children⟩

theorem isSome_ensureChildren (node : Node) : node.ensureChildren.children.isSome = true := by
  unfold Node.ensureChildren
  split
  · rename_i children
    rw [children, Option.isSome_some]
  · rfl

theorem ensureChildren_of_hasChildList (listed : arena.hasChildList id = true) :
    arena.ensureChildren id = arena := by
  rcases hasChildList_iff.mp listed with ⟨node, owners, found, children⟩
  have same : node.ensureChildren = node := by
    unfold Node.ensureChildren
    split
    · rfl
    · rename_i none
      simp [none] at children
  rw [ensureChildren, modifyNode, updateLive_of_live found, same,
    putSlot_self (live?_eq_some_iff.mp found)]

theorem hasChildList_ensureChildren (live : arena.contains id = true) :
    (arena.ensureChildren id).hasChildList id = true := by
  rcases contains_iff.mp live with ⟨node, owners, found⟩
  rw [hasChildList_iff, ensureChildren, live?_modifyNode, if_pos rfl, found]
  exact ⟨_, owners, rfl, isSome_ensureChildren node⟩

theorem isSome_push (node : Node) (child : NodeId) : (node.push child).children.isSome = true := by
  unfold Node.push
  split <;> rfl

theorem hasChildList_pushChild (listed : arena.hasChildList id = true) (parent child : NodeId) :
    (arena.pushChild parent child).2.hasChildList id = true := by
  unfold pushChild
  split
  · exact hasChildList_modifyNode (hasChildList_retain listed child) parent fun node _ =>
      isSome_push node child
  · exact listed

theorem Placed.hasChildList {node : Node} {new : NodeId} (placed : arena.Placed node new later)
    (listed : arena.hasChildList id = true) : later.hasChildList id = true := by
  rcases hasChildList_iff.mp listed with ⟨content, owners, found, children⟩
  have different : id ≠ new := by
    rintro rfl
    rw [placed.live?_before] at found
    cases found
  rw [hasChildList_iff, placed.live?_other different]
  exact ⟨content, owners, found, children⟩

end Arena

namespace Document

structure Load.Based (root : NodeId) (load : Load) : Prop where
  wellFormed : load.arena.WellFormed
  listed : load.arena.hasChildList root = true
  below : load.root = root

namespace Load

variable {registry : Registry} (direct : registry.Direct) {root : NodeId} {load : Load}
  (based : load.Based root)

include direct based

theorem Based.addRecord (line : Nat) (record : Record) :
    (load.addRecord registry line record).Based root := by
  have interned : (load.arena.internAttrs record.attrs).2.WellFormed :=
    ⟨based.wellFormed.free_nodup, based.wellFormed.mem_free, based.wellFormed.live_eq⟩
  have listed : (load.arena.internAttrs record.attrs).2.hasChildList root = true := based.listed
  rcases addRecord_eq registry load line record with ⟨warnings, same⟩
  rw [same]
  generalize load.arena.internAttrs record.attrs = names at interned listed
  have below : (record.request names.1 load.parent).parent = some load.parent := rfl
  rcases direct.build_below names.2 below with same | ⟨node, asks, same⟩
  · simp only [same]
    exact ⟨interned, listed, based.below⟩
  · have placed := Arena.placed_alloc interned asks.childless
    simp only [same]
    exact ⟨Arena.wellFormed_pushChild placed.wellFormed _ _,
      Arena.hasChildList_pushChild (placed.hasChildList listed) _ _, based.below⟩

theorem Based.add (line : Nat) (item : Item) : (load.add registry line item).Based root := by
  cases item with
  | record record => exact based.addRecord direct line record
  | malformed problem => exact ⟨based.wellFormed, based.listed, based.below⟩
  | opening =>
    simp only [Load.add, openBlock]
    split
    · split
      · rename_i node _ _
        exact ⟨Arena.wellFormed_modifyNode based.wellFormed node _,
          Arena.hasChildList_modifyNode based.listed node fun node _ =>
            Arena.isSome_ensureChildren node, based.below⟩
      · exact ⟨based.wellFormed, based.listed, based.below⟩
    · exact ⟨based.wellFormed, based.listed, based.below⟩
  | closing =>
    simp only [Load.add, closeBlock]
    split <;> exact ⟨based.wellFormed, based.listed, based.below⟩
  | nothing => exact based

theorem Based.addAll {options : Options} {rounds : Nat} {cursor : Cursor} :
    (load.addAll registry options rounds cursor).Based root := by
  induction rounds generalizing cursor load with
  | zero => exact based
  | succ rounds induction =>
    unfold Load.addAll
    split
    · unfold finish
      split
      · exact based
      · exact ⟨based.wellFormed, based.listed, based.below⟩
    · rename_i item line later _
      exact induction (based.add direct line item)

end Load

/-- A load that stands where it began, but for what it has made, loads a text as a new load does. -/
theorem Load.Based.addAll_anew {registry : Registry} {options : Options} {root : NodeId}
    {load : Load} (based : load.Based root) (closed : load.blocks = [])
    (clean : load.warnings = #[]) {text : List Char}
    (apart : firstVisible false text ≠ some '{' ∧ firstVisible false text ≠ some '<')
    (lines rounds : Nat) :
    let anew := Load.addAll registry options rounds ⟨1, text⟩ ⟨load.arena, root, [], none, #[]⟩
    (load.addAll registry options rounds ⟨1 + lines, text⟩).arena = anew.arena ∧
      (load.addAll registry options rounds ⟨1 + lines, text⟩).warnings =
        anew.warnings.map (Warning.lowered lines) := by
  rcases load with ⟨arena, base, blocks, latest, warnings⟩
  cases closed
  cases clean
  obtain rfl : base = root := based.below
  intro anew
  have lowered := @addAll_lowered registry options lines rounds ⟨1, text⟩
    ⟨arena, base, [], none, #[]⟩
  have still : Load.lowered lines ⟨arena, base, [], none, #[]⟩ = ⟨arena, base, [], none, #[]⟩ := by
    simp [Load.lowered]
  have forgot := @addAll_latest registry options rounds (Cursor.moved lines [] ⟨1, text⟩)
    ⟨arena, base, [], none, #[]⟩ rfl (by simpa [Cursor.moved] using apart) latest
  rw [still] at lowered
  rw [lowered] at forgot
  have place : Cursor.moved lines [] ⟨1, text⟩ = ⟨1 + lines, text⟩ := by simp [Cursor.moved]
  rw [place] at forgot
  exact forgot

theorem load_warnings_le {registry : Registry} {options : Options} (text : String) (arena : Arena)
    (parent : NodeId) :
    ∀ warning ∈ (load text arena registry parent options).1,
      warning.line ≤ 1 + text.toList.count '\n' := by
  intro warning member
  unfold load at member
  split at member
  · rcases Load.addAll_warnings_le _ _ _ warning (Array.mem_toList_iff.mp member) with none | behind
    · cases Array.not_mem_empty _ none
    · exact behind
  · cases List.not_mem_nil member

/-- What stands before a line end is loaded first, and what stands behind it then, if the first text
is complete and the second one does not begin by opening a block. The lines of the warnings rise by
those before the second text, as long as there are not more lines than can be reported. -/
theorem load_append {registry : Registry} (direct : registry.Direct) {arena middle : Arena}
    (wellFormed : arena.WellFormed) {parent : NodeId} (live : arena.contains parent = true)
    (options : Options) {before after : String} (complete : Complete before.toList)
    (apart : firstVisible false after.toList ≠ some '{' ∧
      firstVisible false after.toList ≠ some '<')
    (clean : load before arena registry parent options = ([], middle)) :
    load (before ++ "\n" ++ after) arena registry parent options =
      ((load after middle registry parent options).1.map
          (Warning.lowered (1 + before.toList.count '\n')),
        (load after middle registry parent options).2) ∧
      (1 + before.toList.count '\n' + after.toList.count '\n' < Warning.lastLine →
        ∀ warning ∈ (load after middle registry parent options).1,
          (warning.lowered (1 + before.toList.count '\n')).line =
            warning.line + (1 + before.toList.count '\n')) := by
  have start : Load.Based parent ⟨arena.ensureChildren parent, parent, [], none, #[]⟩ :=
    ⟨Arena.wellFormed_modifyNode wellFormed parent _, Arena.hasChildList_ensureChildren live, rfl⟩
  have text : (Cursor.ofText (before ++ "\n" ++ after)) =
      (Cursor.ofText before).moved 0 ('\n' :: after.toList) := by
    simp [Cursor.ofText, Cursor.moved]
  -- the first text by itself
  rw [load, if_pos live] at clean
  simp only [Prod.mk.injEq, Array.toList_eq_nil_iff] at clean
  have based : (Load.addAll registry options ((Cursor.ofText before).rest.length + 1)
      (Cursor.ofText before) ⟨arena.ensureChildren parent, parent, [], none, #[]⟩).Based parent :=
    start.addAll direct
  have joined := @Load.addAll_joined registry options _
    (((Cursor.ofText before).rest ++ '\n' :: after.toList).length + 1) _ _ after.toList complete
    (Nat.lt_succ_self _) (Nat.lt_succ_self _) clean.1
  generalize Load.addAll registry options ((Cursor.ofText before).rest.length + 1)
      (Cursor.ofText before) ⟨arena.ensureChildren parent, parent, [], none, #[]⟩ = between
    at clean based joined
  rcases clean with ⟨quiet, rfl⟩
  have anew := @Load.Based.addAll_anew registry options parent between based joined.1 quiet
    after.toList apart (1 + before.toList.count '\n') (after.toList.length + 1)
  have liveBetween : between.arena.contains parent = true := by
    rcases Arena.hasChildList_iff.mp based.listed with ⟨node, owners, found, -⟩
    exact Arena.contains_iff.mpr ⟨node, owners, found⟩
  have place : (Cursor.mk ((Cursor.ofText before).line + (Cursor.ofText before).rest.count '\n' + 1)
      after.toList) = ⟨1 + (1 + before.toList.count '\n'), after.toList⟩ := by
    simp [Cursor.ofText, Nat.add_comm]
  rw [place] at joined
  refine ⟨?_, fun few warning member => ?_⟩
  · -- both texts
    rw [load, if_pos live, load, if_pos liveBetween,
      Arena.ensureChildren_of_hasChildList based.listed]
    simp only [text]
    have whole : ((Cursor.ofText before).moved 0 ('\n' :: after.toList)).rest =
        (Cursor.ofText before).rest ++ '\n' :: after.toList := rfl
    rw [whole, joined.2, anew.1, anew.2, Array.toList_map]
    rfl
  · have bound := load_warnings_le after _ parent warning member
    exact Nat.min_eq_left (by omega)

/-- Attributes go on behind a line end here, and the brace behind the next one closes nothing. -/
theorem load_append_continued :
    let arena := (Arena.empty.alloc (.ofKind "t" .base)).2
    let middle := (load "a,\n b=2" arena .standard ⟨0, 0⟩ ⟨true⟩).2
    arena.WellFormed ∧ arena.contains ⟨0, 0⟩ = true ∧ Complete "a,\n b=2".toList ∧
      load "a,\n b=2" arena .standard ⟨0, 0⟩ ⟨true⟩ = ([], middle) ∧
      firstVisible false "\x7d c".toList = some 'c' ∧
      (load "\x7d c" middle .standard ⟨0, 0⟩ ⟨true⟩).1 = [⟨1, .unmatchedClose⟩] ∧
      (load ("a,\n b=2" ++ "\n" ++ "\x7d c") arena .standard ⟨0, 0⟩ ⟨true⟩).1 =
        [⟨3, .unmatchedClose⟩] := by
  intro arena middle
  have wellFormed : arena.WellFormed := Arena.wellFormed_alloc Arena.steady_empty.wellFormed _
  have live : arena.contains ⟨0, 0⟩ = true := by decide +kernel
  have complete : Complete "a,\n b=2".toList :=
    complete_of_last (by decide) (by decide) "a,\n b=".toList
  have clean : (load "a,\n b=2" arena .standard ⟨0, 0⟩ ⟨true⟩).1 = [] := by decide +kernel
  have whole : load "a,\n b=2" arena .standard ⟨0, 0⟩ ⟨true⟩ = ([], middle) := Prod.ext clean rfl
  have visible : firstVisible false "\x7d c".toList = some 'c' := by decide +kernel
  have apart : firstVisible false "\x7d c".toList ≠ some '{' ∧
      firstVisible false "\x7d c".toList ≠ some '<' := by
    rw [visible]
    decide
  have warned : (load "\x7d c" middle .standard ⟨0, 0⟩ ⟨true⟩).1 = [⟨1, .unmatchedClose⟩] := by
    decide +kernel
  have appended := (load_append Registry.direct_standard wellFormed live ⟨true⟩ complete apart whole).1
  refine ⟨wellFormed, live, complete, whole, visible, warned, ?_⟩
  rw [appended, warned]
  decide +kernel

end Document
end RecordGraph
