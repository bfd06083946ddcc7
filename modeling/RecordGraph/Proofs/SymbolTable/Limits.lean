import RecordGraph.Proofs.Path.Delimiting
import RecordGraph.Proofs.Path.Nesting

/-!
# Limits on the depth of paths

Under a limit every path ends, by a tree of readings that the limit admits or as one that nests too
deep. So a higher limit only turns such failures into something else. Keys whose values are
indirections to one another nest too deep under every limit.
-/

namespace RecordGraph

/-- The bindings of a table, read under a limit on the depth of paths. -/
def SymbolTable.within (table : SymbolTable) (limit : Nat) : SymbolTable :=
  { table with limit := ⟨limit⟩ }

namespace Path

section Within

variable {table : SymbolTable} {limit more : Nat} {arena : Arena} {nested : Bool} {start : Cursor}

theorem indices_within (deeper : Bool → Reader Target) (rounds : List Char)
    (current : Option NodeId) :
    indices (table.within limit) arena deeper rounds current =
      indices table arena deeper rounds current := by
  induction rounds generalizing current with
  | nil => rfl
  | cons _ rounds induction =>
    unfold indices
    simp only [induction]
    rfl

theorem pathOver_within (deeper : Bool → Reader Target) :
    pathOver (table.within limit) arena deeper nested = pathOver table arena deeper nested := by
  unfold pathOver primary
  simp only [indices_within]
  rfl

theorem reads_within_iff {levels : Nat} {outcome : EStateM.Result Error Cursor Target} :
    Reads (table.within limit) arena levels nested start outcome ↔
      Reads table arena levels nested start outcome := by
  constructor
  · intro reads
    induction reads with
    | level _ only induction =>
      simp only [pathOver_within] at only ⊢
      exact .level induction only
  · intro reads
    induction reads with
    | level _ only induction =>
      simp only [← @pathOver_within table limit] at only ⊢
      exact .level induction only

theorem path_within_iff {outcome : EStateM.Result Error Cursor Target} :
    Reads table arena (limit + 1) nested start outcome ↔
      path (table.within limit) arena nested start = outcome ∧ ¬ TooDeep outcome := by
  rw [← @reads_within_iff table limit, reads_iff_below]
  rfl

/-- A path nests too deep under a limit, or a limit that is no lower makes no difference to it. -/
theorem path_within_cases (le : limit ≤ more) :
    TooDeep (path (table.within limit) arena nested start) ∨
      Reads table arena (limit + 1) nested start (path (table.within limit) arena nested start) ∧
        path (table.within more) arena nested start =
          path (table.within limit) arena nested start := by
  by_cases deep : TooDeep (path (table.within limit) arena nested start)
  · exact .inl deep
  · have reads := path_within_iff.mpr ⟨rfl, deep⟩
    have higher := reads.mono (Nat.succ_le_succ le)
    exact .inr ⟨reads, (path_within_iff.mp higher).1⟩

end Within

/-! ## Paths that name themselves -/

/-- Each of the keys is bound to a node whose value is an indirection to one of the keys. -/
def Circular (table : SymbolTable) (arena : Arena) (keys : Set String) : Prop :=
  ∀ key ∈ keys, IsIdentifier key ∧ ∃ node next, table.lookup key = some node ∧ next ∈ keys ∧
    arena.attrById? node .value = some (.text ("$" ++ next))

section Circle

variable {table : SymbolTable} {arena : Arena} {nested : Bool} {key : String} {node : NodeId}

theorem attrPart_at_end (deeper : Bool → Reader Target) (position : Nat) :
    attrPart table arena deeper ⟨position, []⟩ = .ok (some .value) ⟨position, []⟩ := rfl

theorem pathOver_key (deeper : Bool → Reader Target) (isIdentifier : IsIdentifier key)
    (bound : table.lookup key = some node) (position : Nat) :
    pathOver table arena deeper nested ⟨position, key.toList⟩ =
      .ok ⟨some node, some .value⟩ ⟨position + byteSize key.toList, []⟩ := by
  have begins := isIdentifier.begins
  have read := @run_identifier table arena deeper [] key isIdentifier Text.stops_nil position
  rw [List.append_nil] at read
  cases front : key.toList with
  | nil => simp [front] at begins
  | cons first others =>
    rw [front] at begins read
    have primed : primary table arena deeper ⟨position, first :: others⟩ =
        .ok (some node) ⟨position + byteSize (first :: others), []⟩ := by
      unfold primary
      refine (bind_of_ok read).trans ?_
      rw [if_neg isIdentifier.ne_empty, bound]
      rfl
    have more : ¬ (Cursor.mk position (first :: others)).rest.isEmpty = true := Bool.false_ne_true
    have direct : ¬ beginsIndirection (Cursor.mk position (first :: others)).rest = true :=
      Bool.eq_false_iff.mp (beginsIndirection_of_begins begins others)
    have got : (get : Reader Cursor) ⟨position, first :: others⟩ = .ok _ _ := rfl
    unfold pathOver
    refine (bind_of_ok got).trans ?_
    rw [if_neg more, if_neg direct]
    refine (bind_of_ok primed).trans ((bind_of_ok (attrPart_at_end deeper _)).trans ?_)
    cases nested <;> cases table.robust <;> rfl

theorem tooDeep_of_circular {keys : Set String} (circular : Circular table arena keys)
    (member : key ∈ keys) (levels : Nat) :
    TooDeep (below table arena levels nested (.ofText ("$" ++ key))) := by
  induction levels generalizing key with
  | zero => exact ⟨_, _, rfl, trivial⟩
  | succ levels induction =>
    rcases circular key member with ⟨isIdentifier, node, next, bound, memberNext, value⟩
    have start : Cursor.ofText ("$" ++ key) = ⟨0, '$' :: key.toList⟩ := by
      rw [Cursor.ofText, String.toList_append]
      rfl
    have indirect : beginsIndirection ('$' :: key.toList) = true := by
      apply beginsIndirection_cons
      intro paren
      have begins := isIdentifier.begins
      rw [paren] at begins
      cases begins
    have opened : below table arena (levels + 1) nested ⟨0, '$' :: key.toList⟩ = _ :=
      pathOver_of_indirect indirect
    rw [start, opened]
    cases levels with
    | zero => exact ⟨_, _, rfl, trivial⟩
    | succ levels =>
      have inner : below table arena (levels + 1) nested ⟨1, key.toList⟩ = _ :=
        pathOver_key (below table arena levels) isIdentifier bound 1
      have text : (Target.value ⟨some node, some .value⟩ arena).toText = "$" ++ next := by
        simp only [Target.value, Target.value?, value, Option.getD_some, Value.toText_text]
      rcases induction memberNext with ⟨failure, place, ran, deep⟩
      have ran : (below table arena (levels + 1) nested).run (.ofText ("$" ++ next)) =
        .error failure place := ran
      refine ⟨failure, ⟨1 + byteSize key.toList, []⟩, (bind_of_ok inner).trans ?_, deep⟩
      simp only [text, Reader.readText, ran]
      rfl

theorem resolve_of_circular {keys : Set String} (circular : Circular table arena keys)
    (member : key ∈ keys) : resolve table arena ("$" ++ key) =
      .error (.tooDeep ⟨table.limit.max + 1, table.limit.max⟩) := by
  rcases @tooDeep_of_circular table arena false key keys circular member (table.limit.max + 1) with
    ⟨failure, place, ran, deep⟩
  cases excess_below ran deep
  have ran : (path table arena false).run (.ofText ("$" ++ key)) = .error _ place := ran
  rw [resolve, ran]

end Circle
end Path

namespace SymbolTable

theorem moreLenient_within (table : SymbolTable) {limit more : Nat} (le : limit ≤ more) :
    Path.MoreLenient (table.within limit) (table.within more) :=
  ⟨rfl, id, le⟩

/-- A limit only decides between an answer and nothing. Under it every path, at any place of a text,
is read by a finite tree with at most so many levels inside the outermost one, and then under every
higher limit alike; or it has no such tree and nests too deep, by one level. So what resolves
resolves to the same under a higher limit, and a value that is found stays the same. Paths that
name themselves end too, as paths that nest too deep. -/
theorem limit_only_withholds (table : SymbolTable) (arena : Arena) {limit more : Nat}
    (le : limit ≤ more) (text : String) :
    (∀ nested start,
      Path.Reads table arena (limit + 1) nested start
          (Path.path (table.within limit) arena nested start) ∧
        Path.path (table.within more) arena nested start =
          Path.path (table.within limit) arena nested start ∨
      (∀ outcome, ¬ Path.Reads table arena (limit + 1) nested start outcome) ∧
        ∃ place, Path.path (table.within limit) arena nested start =
          .error (.tooDeep ⟨limit + 1, limit⟩) place) ∧
    (∀ target, Path.resolve (table.within limit) arena text = .ok target →
      Path.resolve (table.within more) arena text = .ok target) ∧
    ((table.within limit).query arena text = .absent ∨
      (table.within limit).query arena text = (table.within more).query arena text) ∧
    ∀ keys key, Path.Circular table arena keys → key ∈ keys →
      Path.resolve (table.within limit) arena ("$" ++ key) =
        .error (.tooDeep ⟨limit + 1, limit⟩) := by
  have lenient := table.moreLenient_within le
  refine ⟨fun nested start => ?_, fun target => Path.resolve_of_resolve lenient arena, ?_,
    fun keys key circular member => ?_⟩
  · rcases @Path.path_within_cases table limit more arena nested start le with deep | found
    · refine .inr ⟨fun outcome reads => ?_, ?_⟩
      · rcases Path.path_within_iff.mp reads with ⟨rfl, shallow⟩
        exact shallow deep
      · rcases deep with ⟨failure, place, ran, deep⟩
        have beyond := @Path.excess_below (table.within limit) arena (limit + 1) nested start
          failure place ran deep
        exact ⟨place, beyond ▸ ran⟩
    · exact .inl found
  · by_cases absent : (table.within limit).query arena text = .absent
    · exact .inl absent
    · exact .inr (query_of_query lenient absent).symm
  · have circularWithin : Path.Circular (table.within limit) arena keys := circular
    exact Path.resolve_of_circular circularWithin member

def circle : SymbolTable × Arena :=
  let arena := (Arena.empty.allocKind "x" .string).2
  let arena := arena.setAttr ⟨0, 0⟩ "" (.text "$x")
  (empty "main").define arena "x" ⟨0, 0⟩

/-- An indirection that takes one level, and one that takes all levels there are. -/
theorem limit_only_withholds_circle :
    1 ≤ 2 ∧ (signpost.1.within 0).query signpost.2 "$x" = .absent ∧
      (signpost.1.within 1).query signpost.2 "$x" = .int 7 ∧
      (signpost.1.within 2).query signpost.2 "$x" = .int 7 ∧
      Path.resolve (circle.1.within 1) circle.2 "$x" = .error (.tooDeep ⟨2, 1⟩) := by
  have le : 1 ≤ 2 := by decide
  have refused : (signpost.1.within 0).query signpost.2 "$x" = .absent := by decide +kernel
  have value : (signpost.1.within 1).query signpost.2 "$x" = .int 7 := by decide +kernel
  have circular : Path.Circular circle.1 circle.2 {"x"} := by
    rintro key rfl
    exact ⟨⟨rfl, List.all_eq_true.mp rfl⟩, ⟨0, 0⟩, "x", by decide +kernel, rfl, by decide +kernel⟩
  have sign := limit_only_withholds signpost.1 signpost.2 le "$x"
  have round := limit_only_withholds circle.1 circle.2 le "$x"
  refine ⟨le, refused, value, ?_, round.2.2.2 {"x"} "x" circular rfl⟩
  rcases sign.2.2.1 with absent | same
  · cases value.symm.trans absent
  · exact same.symm.trans value

end SymbolTable
end RecordGraph
