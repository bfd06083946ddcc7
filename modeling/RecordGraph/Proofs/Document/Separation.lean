import RecordGraph.Proofs.Document.Endings

/-!
# How records are told apart

In a document that loads without warnings a line end, a `;` or a brace stands between one record and
the next, with one exception: a record may begin behind a bare key or a literal and blanks, in which
another record ends. What is left behind a header is reported in every document.
-/

namespace RecordGraph.Document
open Text

/-! ## The items of a document -/

inductive Rows (options : Options) : Cursor → List (Cursor × Item) → Prop where
  | nil {cursor : Cursor} : Item.next? options cursor = none → Rows options cursor []
  | cons {cursor later : Cursor} {item : Item} {line : Nat} {rows : List (Cursor × Item)} :
      Item.next? options cursor = some (item, line, later) → Rows options later rows →
      Rows options cursor ((cursor.skip isGapOrLineEnd, item) :: rows)

variable {options : Options} {cursor later start next : Cursor} {item : Item}
  {rows before between after : List (Cursor × Item)}

theorem exists_rows (options : Options) (cursor : Cursor) : ∃ rows, Rows options cursor rows := by
  induction left : cursor.rest.length using Nat.strong_induction_on generalizing cursor with
  | h left induction =>
    cases found : Item.next? options cursor with
    | none => exact ⟨[], .nil found⟩
    | some row =>
      rcases row with ⟨item, line, later⟩
      have fewer := (Item.next?_takes found).2
      rcases induction _ (left ▸ fewer) later rfl with ⟨rows, onward⟩
      exact ⟨_, .cons found onward⟩

namespace Rows

theorem unique {others : List (Cursor × Item)} (all : Rows options cursor rows)
    (again : Rows options cursor others) : rows = others := by
  induction all generalizing others with
  | nil none =>
    cases again with
    | nil => rfl
    | cons found => cases none.symm.trans found
  | cons found onward induction =>
    cases again with
    | nil none => cases none.symm.trans found
    | cons foundAgain onwardAgain =>
      cases found.symm.trans foundAgain
      rw [induction onwardAgain]

theorem behind (all : Rows options cursor (before ++ rows)) : ∃ later, Rows options later rows := by
  induction before generalizing cursor with
  | nil => exact ⟨cursor, all⟩
  | cons row before induction =>
    cases all with
    | cons found onward => exact induction onward

theorem first_eq (all : Rows options cursor ((start, item) :: rows)) :
    ∃ line first others later, start = ⟨line, first :: others⟩ ∧ isGapOrLineEnd first = false ∧
      cursor.skip isGapOrLineEnd = start ∧ Item.begun options start first = (item, later) ∧
      Rows options later rows := by
  cases all with
  | @cons _ later _ line _ found onward =>
    rcases Item.next?_eq_some_iff.mp found with ⟨first, others, front, visible, begins⟩
    exact ⟨line, first, others, later, front, visible, rfl, by rw [front, begins], onward⟩

theorem reaches (all : Rows options cursor (before ++ (start, item) :: rows)) :
    cursor.Reaches start := by
  induction before generalizing cursor with
  | nil =>
    rcases first_eq all with ⟨_, _, _, _, -, -, rfl, -⟩
    exact cursor.reaches_skip _
  | cons row before induction =>
    cases all with
    | cons found onward => exact (Item.next?_takes found).1.trans (induction onward)

theorem reported {registry : Registry} {problem : Problem} {rounds : Nat} {load : Load}
    (all : Rows options cursor rows) (member : (start, .malformed problem) ∈ rows)
    (enough : cursor.rest.length < rounds) :
    .on start.line problem ∈ (load.addAll registry options rounds cursor).warnings := by
  induction all generalizing rounds load with
  | nil => cases member
  | @cons cursor later item line rows found onward induction =>
    obtain ⟨rounds, rfl⟩ := Nat.exists_eq_succ_of_ne_zero (Nat.ne_zero_of_lt enough)
    have fewer := (Item.next?_takes found).2
    unfold Load.addAll
    simp only [found]
    rcases List.mem_cons.mp member with same | member
    · cases same
      rcases Item.next?_eq_some_iff.mp found with ⟨first, others, front, -⟩
      rcases Load.exists_addAll_warnings rounds later
        (load.add registry line (.malformed problem)) with ⟨more, grown⟩
      rw [grown, front]
      simp [Load.add, Load.warn]
    · exact induction member (by omega)

end Rows

/-! ## Between two records -/

theorem Item.begun_cases {line : Nat} {first : Char} {others : List Char}
    (begins : Item.begun options ⟨line, first :: others⟩ first = (item, later)) :
    (∃ record, item = .record record ∧ first ∉ itemSigns ∧
      Scanner.record options ⟨line, first :: others⟩ = .ok record later) ∨
    (∃ problem, item = .malformed problem) ∨
    ((∀ record, item ≠ .record record) ∧
      (first ∈ recordEnds ∧ (Cursor.mk line others).Reaches later ∨
        first = '#' ∧ later = (Cursor.mk line (first :: others)).skip (· != '\n'))) := by
  by_cases sign : first ∈ itemSigns
  · right
    right
    simp only [itemSigns, List.mem_cons, List.not_mem_nil, or_false] at sign
    have next {sign : Char} (visible : sign ≠ '\n') :
        (Cursor.mk line others).Reaches (Cursor.mk line (sign :: others)).next := by
      rw [Cursor.next_cons visible]
      exact .refl _
    rcases sign with rfl | rfl | rfl | rfl | rfl | rfl <;> cases begins
    · exact ⟨by simp, .inr ⟨rfl, rfl⟩⟩
    all_goals exact ⟨by simp, .inl ⟨by decide, next (by decide)⟩⟩
  · rw [begun_ordinary options _ sign, ofRecord] at begins
    cases ran : (Scanner.record options).run ⟨line, first :: others⟩ with
    | ok record finish =>
      rw [ran] at begins
      cases begins
      exact .inl ⟨record, rfl, sign, ran⟩
    | error problem finish =>
      rw [ran] at begins
      cases begins
      exact .inr (.inl ⟨problem, rfl⟩)

def Plain (row : Cursor × Item) : Prop :=
  (∀ record, row.2 ≠ .record record) ∧ ∀ problem, row.2 ≠ .malformed problem

theorem isGap_of_blank {gap : List Char}
    (blank : ∀ character ∈ gap, isGapOrLineEnd character = true) :
    (∃ character ∈ gap, character ∈ recordEnds) ∨ IsGap gap := by
  by_cases ends : ∃ character ∈ gap, character ∈ recordEnds
  · exact .inl ends
  · refine .inr fun character member => ?_
    have either := blank character member
    simp only [isGapOrLineEnd, Bool.or_eq_true, beq_iff_eq] at either
    rcases either with (gap | rfl) | rfl
    · exact gap
    all_goals exact absurd ⟨_, member, by decide⟩ ends

/-- Where something besides blanks stands between a place and an item, and it is no record, a record
ends in it. -/
theorem Rows.separated (all : Rows options cursor (between ++ (next, item) :: after))
    (plain : ∀ row ∈ between, Plain row) :
    ∃ behind, cursor.rest = behind ++ next.rest ∧
      ((∃ character ∈ behind, character ∈ recordEnds) ∨ between = [] ∧ IsGap behind) := by
  cases between with
  | nil =>
    rcases all.first_eq with ⟨_, _, _, _, -, -, rfl, -⟩
    refine ⟨cursor.ahead isGapOrLineEnd, ?_, ?_⟩
    · rw [Cursor.rest_skip]
      exact List.takeWhile_append_dropWhile.symm
    · exact (isGap_of_blank fun _ => List.mem_takeWhile_imp).imp_right fun gap => ⟨rfl, gap⟩
  | cons row between =>
    rcases row with ⟨start, item⟩
    rcases all.first_eq with ⟨line, first, others, later, rfl, visible, front, begins, onward⟩
    rcases onward.reaches with ⟨taken, rest, -⟩
    rcases cursor.reaches_skip isGapOrLineEnd with ⟨blanks, restBlank, -⟩
    rw [front] at restBlank
    have ordinary := plain _ List.mem_cons_self
    rcases Item.begun_cases begins with
      ⟨record, rfl, -⟩ | ⟨problem, rfl⟩ | ⟨-, ⟨ends, passed, restSign, -⟩ | ⟨rfl, same⟩⟩
    · exact absurd rfl (ordinary.1 record)
    · exact absurd rfl (ordinary.2 problem)
    · simp only at restSign
      refine ⟨blanks ++ first :: (passed ++ taken), ?_, .inl ⟨first, by simp, ends⟩⟩
      rw [restBlank, restSign, rest]
      simp
    · -- The comment goes on to the end of its line, and the item stands behind that.
      rcases onward.behind with ⟨place, here⟩
      rcases here.first_eq with ⟨_, initial, remaining, _, rfl, visibleNext, -⟩
      have feed := stops_dropWhile (· != '\n') ('#' :: others)
      have split := List.takeWhile_append_dropWhile (p := (· != '\n')) (l := '#' :: others)
      rw [show ('#' :: others).dropWhile (· != '\n') = later.rest by rw [same, Cursor.rest_skip],
        rest] at feed split
      rcases taken with _ | ⟨character, taken⟩
      · have visible := feed initial rfl
        simp only [bne_eq_false_iff_eq] at visible
        subst visible
        cases visibleNext
      · have lineEnd := feed character rfl
        simp only [bne_eq_false_iff_eq] at lineEnd
        refine ⟨blanks ++ (('#' :: others).takeWhile (· != '\n') ++ character :: taken), ?_,
          .inl ⟨character, by simp, by rw [lineEnd]; decide⟩⟩
        rw [restBlank, List.append_assoc, List.append_assoc, split]

theorem EndsInWord.gap {attrs : List (String × Value)} {taken gap : List Char}
    (ends : EndsInWord attrs taken) (blank : IsGap gap) : EndsInWord attrs (taken ++ gap) := by
  rcases ends with
    ⟨others, last, front, word, before, rfl, rfl, isLast, present, gapped, blankBefore⟩
  refine ⟨others, last, front, word, before ++ gap, rfl, by simp, isLast, present,
    List.append_ne_nil_of_left_ne_nil gapped gap, fun character member => ?_⟩
  rcases List.mem_append.mp member with member | member
  · exact blankBefore character member
  · exact blank character member

/-- Where a record begins behind blanks, no record ended in front of them by itself. -/
theorem Rows.not_endsIn {record : Record} {gap : List Char}
    (all : Rows options cursor ((next, .record record) :: after))
    (behind : cursor.rest = gap ++ next.rest) (blank : IsGap gap) :
    ¬ EndsIn ('#' :: recordEnds) cursor.rest := by
  intro ends
  rw [behind] at ends
  rcases gap with _ | ⟨first, gap⟩
  · rcases all.first_eq with ⟨line, initial, others, later, rfl, visible, front, begins, -⟩
    rcases Item.begun_cases begins with ⟨_, -, ordinary, -⟩ | ⟨problem, ⟨⟩⟩ | ⟨other, -⟩
    · have facts : ∀ character ∈ '#' :: recordEnds,
          isGapOrLineEnd character = true ∨ character ∈ itemSigns := forall_mem_of_all (by decide)
      rcases facts initial (ends initial rfl) with blank | sign
      · rw [visible] at blank
        cases blank
      · exact ordinary sign
    · exact other record rfl
  · have facts : ∀ character ∈ '#' :: recordEnds, isGap character = false :=
      forall_mem_of_all (by decide)
    have gap := blank first List.mem_cons_self
    rw [facts first (ends first rfl)] at gap
    cases gap

/-- Between the beginnings of two records, the next behind the other, a record ends, or all that
stands between what is read of the first one and the second one is a bare key or a literal and
blanks. -/
theorem Rows.records {first second : Record}
    (all : Rows options cursor
      ((start, .record first) :: (between ++ (next, .record second) :: after)))
    (plain : ∀ row ∈ between, Plain row) :
    ∃ taken, start.rest = taken ++ next.rest ∧
      ((∃ character ∈ taken, character ∈ recordEnds) ∨
        between = [] ∧ EndsInWord first.attrs taken) := by
  rcases all.first_eq with ⟨line, initial, others, later, rfl, visible, front, begins, onward⟩
  rcases Item.begun_cases begins with
    ⟨record, ⟨⟩, ordinary, ran⟩ | ⟨problem, ⟨⟩⟩ | ⟨other, -⟩
  · rcases onward.separated plain with ⟨behind, restBehind, separated⟩
    rcases (Scanner.forward_record options).reaches ran with ⟨taken, rest, -⟩
    refine ⟨taken ++ behind, by rw [rest, restBehind, List.append_assoc], ?_⟩
    rcases separated with ⟨character, member, ends⟩ | ⟨rfl, gap⟩
    · exact .inl ⟨character, List.mem_append_right _ member, ends⟩
    · refine .inr ⟨rfl, ?_⟩
      rcases Scanner.settles_record ran with ends | ⟨word, same, ends⟩
      · -- Behind such an end no record begins.
        exact absurd ends (onward.not_endsIn restBehind gap)
      · rw [rest, List.append_left_inj] at same
        rw [same]
        exact ends.gap gap
  · exact absurd rfl (other first)

theorem HeaderText.ordinary {header : List Char} (written : HeaderText options header)
    {initial : Char} {others rest : List Char} (same : header ++ rest = initial :: others)
    (visible : isGapOrLineEnd initial = false) : initial ∉ itemSigns := by
  have named {label : String} (isName : IsName label) {behind : List Char}
      (same : label.toList ++ behind = initial :: others) :
      initial ∉ itemSigns ∨ behind = initial :: others := by
    rcases characters : label.toList with _ | ⟨first, remaining⟩
    · rw [characters] at same
      exact .inr same
    · rw [characters, List.cons_append, List.cons.injEq] at same
      have goes := isName.characters first (by rw [characters]; exact List.mem_cons_self)
      have facts : ∀ sign ∈ itemSigns, nameStops.contains sign = true :=
        forall_mem_of_all (by decide)
      refine .inl fun sign => ?_
      rw [same.1, facts initial sign] at goes
      cases goes
  have blankless {gap behind : List Char} (blank : IsGap gap) (present : gap ≠ []) :
      gap ++ behind ≠ initial :: others := by
    intro same
    obtain ⟨first, gap, rfl⟩ := List.exists_cons_of_ne_nil present
    cases same
    have gap := blank initial List.mem_cons_self
    rw [Scanner.not_isGap_of_not_blank visible] at gap
    cases gap
  cases written with
  | name isName blank present =>
    rw [List.append_assoc] at same
    exact (named isName same).resolve_right (blankless blank present)
  | @type label typeName before between gap typed isName blankBefore =>
    simp only [List.append_assoc, List.cons_append] at same
    rcases named isName same with ordinary | behind
    · exact ordinary
    · by_cases none : before = []
      · rw [none] at behind
        cases behind
        decide
      · exact absurd behind (blankless blankBefore none)

/-- One record comes next behind another, with items that are no records between them. -/
def Consecutive (rows : List (Cursor × Item)) (start : Cursor) (first : Record)
    (between : List (Cursor × Item)) (next : Cursor) : Prop :=
  ∃ before second after,
    rows = before ++ (start, .record first) :: (between ++ (next, .record second) :: after) ∧
      ∀ row ∈ between, ∀ record, row.2 ≠ .record record

/-- A character stands behind a header and blanks that may not stand there. -/
def LeftBehindHeader (options : Options) (text : List Char) (first : Char) : Prop :=
  ∃ header rest, HeaderText options header ∧ text = header ++ first :: rest ∧
    isGap first = false ∧ headerEnds.contains first = false

theorem Rows.malformed_of_left {first : Char} (all : Rows options cursor rows)
    (member : (start, item) ∈ rows) (left : LeftBehindHeader options start.rest first) :
    item = .malformed (.unexpectedCharacter first) := by
  rcases left with ⟨header, rest, written, ahead, solid, other⟩
  rcases List.append_of_mem member with ⟨before, after, rfl⟩
  rcases all.behind with ⟨place, here⟩
  rcases here.first_eq with ⟨line, initial, others, later, rfl, visible, -, begins, -⟩
  have visibleText : Stops isGap (header ++ first :: rest) := by
    rw [← ahead]
    exact stops_cons.mpr (Scanner.not_isGap_of_not_blank visible)
  have refused := Scanner.record_unexpected written visibleText solid other line
  rw [← ahead] at refused
  have run : (Scanner.record options).run ⟨line, initial :: others⟩ =
    .error (.unexpectedCharacter first) ⟨line, first :: rest⟩ := refused
  rw [Item.begun_ordinary options _ (written.ordinary ahead.symm visible), Item.ofRecord, run]
    at begins
  exact (congrArg Prod.fst begins).symm

/-- A load without warnings tells its records apart: between the beginnings of two records, the
second next behind the first, there is a line end, a `;` or a brace, unless the first one ends in a
bare key or a literal and blanks directly in front of the second one. What is left behind a header
is reported in every load, on the line of the header. -/
theorem load_separates (text : String) {arena : Arena} (registry : Registry) {parent : NodeId}
    (options : Options) (live : arena.contains parent = true) :
    ∃ rows, Rows options (.ofText text) rows ∧
      ((load text arena registry parent options).1 = [] →
        ∀ start first between next, Consecutive rows start first between next →
          ∃ taken, start.rest = taken ++ next.rest ∧
            ((∃ character ∈ taken, character ∈ recordEnds) ∨
              between = [] ∧ EndsInWord first.attrs taken)) ∧
      ∀ start item first, (start, item) ∈ rows → LeftBehindHeader options start.rest first →
        .on start.line (.unexpectedCharacter first) ∈
          (load text arena registry parent options).1 := by
  rcases exists_rows options (.ofText text) with ⟨rows, all⟩
  have reported {start : Cursor} {problem : Problem} (member : (start, .malformed problem) ∈ rows) :
      .on start.line problem ∈ (load text arena registry parent options).1 := by
    unfold load
    rw [if_pos live]
    exact Array.mem_toList_iff.mpr (all.reported member (Nat.lt_succ_self _))
  refine ⟨rows, all, fun clean start first between next consecutive => ?_,
    fun start item first member left => ?_⟩
  · rcases consecutive with ⟨before, second, after, rfl, plain⟩
    rcases all.behind with ⟨place, here⟩
    refine here.records fun row member => ⟨plain row member, fun problem malformed => ?_⟩
    have among : (row.1, Item.malformed problem) ∈
        before ++ (start, .record first) :: (between ++ (next, .record second) :: after) := by
      rw [← malformed]
      simp [member]
    have warned := reported among
    rw [clean] at warned
    cases warned
  · cases all.malformed_of_left member left
    exact reported member

/-- The `;` stands between the two records, and the blank behind it is no end of one. -/
theorem load_separates_listed :
    let arena := (Arena.empty.alloc (.ofKind "t" .base)).2
    arena.contains ⟨0, 0⟩ = true ∧ (load "a,x=1; b" arena .standard ⟨0, 0⟩ ⟨true⟩).1 = [] ∧
      ∃ taken, "a,x=1; b".toList = taken ++ ['b'] ∧
        ∃ character ∈ taken, character ∈ recordEnds := by
  intro arena
  have live : arena.contains ⟨0, 0⟩ = true := by decide +kernel
  have clean : (load "a,x=1; b" arena .standard ⟨0, 0⟩ ⟨true⟩).1 = [] := by decide +kernel
  have rows : Rows ⟨true⟩ (.ofText "a,x=1; b") [(⟨1, "a,x=1; b".toList⟩,
      .record ⟨"a", "", [("x", .int 1)], false⟩), (⟨1, "; b".toList⟩, .nothing),
      (⟨1, ['b']⟩, .record ⟨"b", "", [], false⟩)] := by
    have first : Item.next? ⟨true⟩ (.ofText "a,x=1; b") =
        some (.record ⟨"a", "", [("x", .int 1)], false⟩, 1, ⟨1, "; b".toList⟩) := by decide +kernel
    have second : Item.next? ⟨true⟩ ⟨1, "; b".toList⟩ = some (.nothing, 1, ⟨1, " b".toList⟩) := rfl
    have third : Item.next? ⟨true⟩ ⟨1, " b".toList⟩ =
        some (.record ⟨"b", "", [], false⟩, 1, ⟨1, []⟩) := by decide +kernel
    exact .cons first (.cons second (.cons third (.nil rfl)))
  rcases load_separates "a,x=1; b" .standard ⟨true⟩ live with ⟨_, all, separates, -⟩
  cases all.unique rows
  rcases separates clean ⟨1, "a,x=1; b".toList⟩ _ [(⟨1, "; b".toList⟩, .nothing)] ⟨1, ['b']⟩
    ⟨[], _, [], rfl, by simp⟩ with ⟨taken, same, ends | ⟨⟨⟩, -⟩⟩
  exact ⟨live, clean, taken, same, ends⟩

/-- What is left behind the literal is taken for a record, without a warning. -/
theorem load_splits_line :
    let arena := (Arena.empty.alloc (.ofKind "t" .base)).2
    (load "a,x=1 b" arena .standard ⟨0, 0⟩ ⟨true⟩).1 = [] ∧
      Rows ⟨true⟩ (.ofText "a,x=1 b") [(⟨1, "a,x=1 b".toList⟩,
        .record ⟨"a", "", [("x", .int 1)], false⟩), (⟨1, ['b']⟩, .record ⟨"b", "", [], false⟩)] ∧
      "a,x=1 b".toList = "a,x=1 ".toList ++ ['b'] ∧
      ∀ character ∈ "a,x=1 ".toList, character ∉ recordEnds := by
  have first : Item.next? ⟨true⟩ (.ofText "a,x=1 b") =
      some (.record ⟨"a", "", [("x", .int 1)], false⟩, 1, ⟨1, ['b']⟩) := by decide +kernel
  have second : Item.next? ⟨true⟩ ⟨1, ['b']⟩ = some (.record ⟨"b", "", [], false⟩, 1, ⟨1, []⟩) := by
    decide +kernel
  exact ⟨by decide +kernel, .cons first (.cons second (.nil rfl)), rfl,
    forall_mem_of_all (by decide)⟩

end RecordGraph.Document
