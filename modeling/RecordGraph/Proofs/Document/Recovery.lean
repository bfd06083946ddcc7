import RecordGraph.Proofs.Document.Endings

/-!
# Behind a malformed record

A record whose name is malformed is reported once, and nothing comes of it. Where the load goes on
is found without reading its attributes: lines are passed over as long as the next one begins with a
comma, and anything else that could end a record ends it, inside quotes and comments too. This is
the end of the record for a text without such ends, except where commas stand on both sides of a
line end.
-/

namespace RecordGraph.Document
open Text

/-! ## What a recovery passes over -/

def IsLine (line : List Char) : Prop :=
  ∀ character ∈ line, character ∉ recordEnds

def IsBlank (blanks : List Char) : Prop :=
  ∀ character ∈ blanks, isGapOrLineEnd character = true

/-- A text that a recovery passes over in front of another one: lines in which no record ends, where
all but the last one have a line end, blanks and a comma behind them. The last one has no comma
behind it. -/
inductive Passes : List Char → List Char → Prop where
  | last {line blanks rest : List Char} : IsLine line → IsBlank blanks →
      EndsIn recordEnds (blanks ++ rest.dropWhile isGap) →
      (rest.dropWhile isGapOrLineEnd).head? ≠ some ',' → Passes (line ++ blanks) rest
  | comma {line blanks whole rest : List Char} : IsLine line → IsBlank blanks →
      Scanner.Stands recordEnds blanks → Passes whole rest →
      Passes (line ++ (blanks ++ ',' :: whole)) rest

def goesOn (character : Char) : Bool := !recordEnds.contains character

theorem goesOn_of_isLine {line : List Char} (isLine : IsLine line) :
    ∀ character ∈ line, goesOn character = true := fun character member => by
  simpa [goesOn] using isLine character member

theorem goesOn_eq_false_iff {character : Char} :
    goesOn character = false ↔ character ∈ recordEnds := by
  simp [goesOn]

theorem dropWhile_line {line blanks rest : List Char} (isLine : IsLine line)
    (isBlank : IsBlank blanks) (ends : EndsIn recordEnds (blanks ++ rest.dropWhile isGap)) :
    ((line ++ (blanks ++ rest)).dropWhile goesOn).dropWhile isGapOrLineEnd =
      rest.dropWhile isGapOrLineEnd := by
  rw [List.dropWhile_append_of_pos (goesOn_of_isLine isLine)]
  rcases blanks with _ | ⟨first, blanks⟩
  · have gap : ∀ character ∈ rest.takeWhile isGap, isGap character = true :=
      fun _ => List.mem_takeWhile_imp
    have gapGoesOn : ∀ character ∈ rest.takeWhile isGap, goesOn character = true := by
      intro character member
      cases goes : goesOn character with
      | true => rfl
      | false =>
        have facts : ∀ character ∈ recordEnds, isGap character = false :=
          forall_mem_of_all (by decide)
        have visible := facts character (goesOn_eq_false_iff.mp goes)
        rw [gap character member] at visible
        cases visible
    have stops : Stops goesOn (rest.dropWhile isGap) := fun character first =>
      goesOn_eq_false_iff.mpr (ends character first)
    have split := List.takeWhile_append_dropWhile (p := isGap) (l := rest)
    rw [List.nil_append, ← split, dropWhile_run gapGoesOn stops,
      List.dropWhile_append_of_pos fun character member => by
        rw [isGapOrLineEnd, gap character member]; rfl]
  · have stop := goesOn_eq_false_iff.mpr (ends first rfl)
    rw [List.cons_append, List.dropWhile_cons_of_neg (by simp [stop]), ← List.cons_append,
      List.dropWhile_append_of_pos isBlank]

theorem isGap_of_goesOn {character : Char} (blank : isGapOrLineEnd character = true)
    (goes : goesOn character = true) : isGap character = true := by
  simp only [isGapOrLineEnd, Bool.or_eq_true, beq_iff_eq] at blank
  rcases blank with (gap | rfl) | rfl
  · exact gap
  all_goals exact absurd goes (by decide)

theorem EndsIn.dropWhile_isGap {rest : List Char} (ends : EndsIn recordEnds rest) :
    rest.dropWhile isGap = rest :=
  @dropWhile_run _ [] rest nofun <|
    EndsIn.visible fun character first => by
      have among := ends character first
      simp only [attrEnds, List.mem_cons]
      exact .inr (.inr among)

/-- A comma behind which everything visible of what follows a text stands is part of that text. -/
theorem inside_of_shorter {whole rest front more : List Char}
    (text : whole ++ rest = front ++ ',' :: more)
    (shorter : (rest.dropWhile isGapOrLineEnd).length ≤ more.length) :
    ∃ behind, whole = front ++ ',' :: behind ∧ more = behind ++ rest := by
  have beyond (gap : List Char) : more.length <
      ((gap ++ ',' :: more).dropWhile isGapOrLineEnd).length := by
    rw [List.dropWhile_append]
    split
    · rw [List.dropWhile_cons_of_neg (by decide)]
      exact Nat.lt_succ_self _
    · simp only [List.length_append, List.length_cons]
      omega
  rcases List.append_eq_append_iff.mp text with ⟨gap, -, rfl⟩ | ⟨behind, rfl, same⟩
  · exact absurd shorter (Nat.not_le.mpr (beyond gap))
  · rcases behind with _ | ⟨first, behind⟩
    · rw [List.nil_append] at same
      rw [← same] at shorter
      exact absurd shorter (Nat.not_le.mpr (beyond []))
    · cases same
      exact ⟨behind, rfl, rfl⟩

namespace Cursor

theorem eq_of_reaches {first second place other : Cursor} (reaches : first.Reaches place)
    (reachesOther : second.Reaches other)
    (lines : first.line + first.rest.count '\n' = second.line + second.rest.count '\n')
    (same : place.rest = other.rest) : place = other := by
  have ends := reaches.end_line
  have endsOther := reachesOther.end_line
  rcases place with ⟨line, rest⟩
  rcases other with ⟨lineOther, _⟩
  cases same
  simp only [Cursor.mk.injEq, and_true] at ends endsOther ⊢
  omega

variable {whole rest : List Char} {rounds : List Char} {line : Nat}

/-- A round of a recovery skips a line and the blanks behind it, and takes a comma there. -/
theorem rest_recover_cons (round : Char) (rounds : List Char) (cursor : Cursor) :
    ∃ place : Cursor, place.rest = (cursor.rest.dropWhile goesOn).dropWhile isGapOrLineEnd ∧
      cursor.recover (round :: rounds) =
        if place.isAt ',' then place.next.recover rounds else place := by
  refine ⟨(cursor.skip goesOn).skip isGapOrLineEnd, ?_, rfl⟩
  rw [rest_skip, rest_skip]

theorem rest_recover_of_passes (passes : Passes whole rest)
    (enough : (whole ++ rest).length ≤ rounds.length) :
    (recover rounds ⟨line, whole ++ rest⟩).rest = rest.dropWhile isGapOrLineEnd := by
  induction passes generalizing rounds line with
  | @last front blanks rest isLine isBlank ends other =>
    rcases rounds with _ | ⟨round, rounds⟩
    · have nothing := List.length_eq_zero_iff.mp (Nat.le_zero.mp enough)
      rw [nothing, (List.append_eq_nil_iff.mp nothing).2]
      rfl
    · rcases rest_recover_cons round rounds ⟨line, front ++ blanks ++ rest⟩ with
        ⟨place, there, same⟩
      rw [List.append_assoc, dropWhile_line isLine isBlank ends] at there
      have noComma : ¬ place.isAt ',' = true := by
        rw [isAt, peek, there]
        simpa using other
      rw [same, if_neg noComma, there]
  | @comma front blanks whole rest isLine isBlank stands passes induction =>
    have text : front ++ (blanks ++ ',' :: whole) ++ rest =
        front ++ (blanks ++ ',' :: (whole ++ rest)) := by simp
    rw [text] at enough ⊢
    rcases rounds with _ | ⟨round, rounds⟩
    · simp at enough
    · rcases rest_recover_cons round rounds ⟨line, front ++ (blanks ++ ',' :: (whole ++ rest))⟩ with
        ⟨⟨lineThere, restThere⟩, there, same⟩
      have ends : EndsIn recordEnds (blanks ++ (',' :: (whole ++ rest)).dropWhile isGap) := by
        rcases stands with ⟨first, behind, rfl, stop⟩
        rintro _ ⟨⟩
        exact List.contains_iff_mem.mp stop
      rw [dropWhile_line isLine isBlank ends, List.dropWhile_cons_of_neg (by decide)] at there
      cases there
      have comma : (Cursor.mk lineThere (',' :: (whole ++ rest))).isAt ',' = true := isAt_cons ..
      rw [same, if_pos comma, next_cons (by decide)]
      refine induction ?_
      simp only [List.length_append, List.length_cons] at enough ⊢
      omega

theorem passes_of_rest_recover (enough : (whole ++ rest).length ≤ rounds.length)
    (ends : (recover rounds ⟨line, whole ++ rest⟩).rest = rest.dropWhile isGapOrLineEnd) :
    Passes whole rest := by
  induction rounds generalizing whole line with
  | nil =>
    have nothing := List.append_eq_nil_iff.mp (List.length_eq_zero_iff.mp (Nat.le_zero.mp enough))
    rw [nothing.1, nothing.2]
    exact @Passes.last [] [] [] nofun nofun nofun nofun
  | cons round rounds induction =>
    rcases rest_recover_cons round rounds ⟨line, whole ++ rest⟩ with ⟨place, there, same⟩
    rw [same] at ends
    have split := List.takeWhile_append_dropWhile (p := goesOn) (l := whole ++ rest)
    have isLine : IsLine ((whole ++ rest).takeWhile goesOn) := fun character member stop => by
      have goes := List.mem_takeWhile_imp member
      rw [goesOn_eq_false_iff.mpr stop] at goes
      cases goes
    have stops : EndsIn recordEnds ((whole ++ rest).dropWhile goesOn) := fun character first =>
      goesOn_eq_false_iff.mp (stops_dropWhile goesOn _ character first)
    generalize (whole ++ rest).takeWhile goesOn = front at split isLine
    generalize (whole ++ rest).dropWhile goesOn = tail at split there stops
    have splitBlank := List.takeWhile_append_dropWhile (p := isGapOrLineEnd) (l := tail)
    have isBlank : IsBlank (tail.takeWhile isGapOrLineEnd) := fun _ => List.mem_takeWhile_imp
    rw [← there] at splitBlank
    generalize tail.takeWhile isGapOrLineEnd = blanks at splitBlank isBlank
    have splitRest := List.takeWhile_append_dropWhile (p := isGapOrLineEnd) (l := rest)
    have blankRest : IsBlank (rest.takeWhile isGapOrLineEnd) := fun _ => List.mem_takeWhile_imp
    by_cases comma : place.isAt ',' = true
    · rcases place with ⟨lineThere, _ | ⟨first, more⟩⟩
      · cases comma
      · obtain rfl : first = ',' := by simpa using comma
        rw [if_pos comma, next_cons (by decide)] at ends
        have stands : Scanner.Stands recordEnds blanks := by
          rcases blanks with _ | ⟨first, blanks⟩
          · rw [← splitBlank] at stops
            exact absurd (stops ',' rfl) (by decide)
          · rw [← splitBlank] at stops
            exact ⟨first, blanks, rfl, List.contains_iff_mem.mpr (stops first rfl)⟩
        have text : whole ++ rest = front ++ blanks ++ ',' :: more := by
          rw [← split, ← splitBlank, List.append_assoc]
        have shorter := (reaches_recover rounds ⟨lineThere, more⟩).length_le
        rw [ends] at shorter
        rcases inside_of_shorter text shorter with ⟨behind, rfl, rfl⟩
        have fewer : (behind ++ rest).length ≤ rounds.length := by
          simp only [List.length_append, List.length_cons] at enough ⊢
          omega
        rw [List.append_assoc]
        exact .comma isLine isBlank stands (induction fewer ends)
    · rw [if_neg comma] at ends
      have other : (rest.dropWhile isGapOrLineEnd).head? ≠ some ',' := by
        rw [← ends]
        simpa [isAt, peek] using comma
      rw [← ends] at splitRest
      generalize rest.takeWhile isGapOrLineEnd = gap at splitRest blankRest
      have whole_eq : whole ++ gap = front ++ blanks := by
        refine List.append_left_inj place.rest |>.mp ?_
        rw [List.append_assoc, List.append_assoc, splitRest, splitBlank, split]
      rcases List.append_eq_append_iff.mp whole_eq with
        ⟨behind, rfl, rfl⟩ | ⟨behind, rfl, rfl⟩
      · -- The text ends within the line, so it is the line, with spaces and tabs behind it.
        have isGap : ∀ character ∈ behind, isGap character = true := fun character member =>
          isGap_of_goesOn (blankRest character (List.mem_append_left _ member))
            (goesOn_of_isLine isLine character (List.mem_append_right _ member))
        rw [List.append_assoc, splitBlank] at splitRest
        rw [← List.append_nil whole]
        have isLineWhole : IsLine whole := fun character member =>
          isLine character (List.mem_append_left _ member)
        refine .last isLineWhole nofun ?_ other
        rw [← splitRest, List.dropWhile_append_of_pos isGap, stops.dropWhile_isGap]
        exact stops
      · rw [List.append_assoc, splitRest] at splitBlank
        have isBlankBehind : IsBlank behind := fun character member =>
          isBlank character (List.mem_append_left _ member)
        refine .last isLine isBlankBehind ?_ other
        rw [← splitBlank] at stops
        rcases behind with _ | ⟨first, behind⟩
        · rw [List.nil_append] at stops
          rwa [List.nil_append, stops.dropWhile_isGap]
        · exact stops

end Cursor

/-! ## Malformed names -/

structure IsBadName (bad : List Char) : Prop where
  begins : ∃ first others, bad = first :: others ∧ beginsName first = false
  characters : ∀ character ∈ bad, nameStops.contains character = false

inductive IsComment : List Char → List Char → Prop where
  | none {rest : List Char} : IsComment [] rest
  | comment {characters rest : List Char} : (∀ character ∈ characters, character ≠ '\n') →
      EndsIn ['\n'] rest → IsComment ('#' :: characters) rest

theorem IsBadName.visible {bad : List Char} (isBad : IsBadName bad) :
    ∀ character ∈ bad, isGapOrLineEnd character = false :=
  Scanner.not_blank_of_passes isBad.characters (forall_mem_of_all (by decide))

section

variable {bad rest : List Char} (isBad : IsBadName bad) (ends : EndsIn nameStops rest)

include isBad ends

theorem record_malformed (options : Options) (line : Nat) :
    Scanner.record options ⟨line, bad ++ rest⟩ =
      .error (.invalidName (String.ofList bad)) ⟨line, rest⟩ := by
  rcases isBad.begins with ⟨first, others, rfl, begins⟩
  have visible : Stops isGap (first :: others ++ rest) :=
    stops_cons.mpr (Scanner.not_isGap_of_not_blank (isBad.visible first List.mem_cons_self))
  have ahead : (Cursor.mk line (first :: others ++ rest)).ahead
      (fun character => !nameStops.contains character) = first :: others := by
    refine takeWhile_run (fun character member => ?_) fun character first => ?_
    · rw [isBad.characters character member, Bool.not_false]
    · rw [List.contains_iff_mem.mpr (ends character first), Bool.not_true]
  have feedless : (first :: others).count '\n' = 0 := List.count_eq_zero.mpr fun member =>
    absurd (isBad.visible '\n' member) (by decide)
  have taken : Scanner.takeUntil nameStops ⟨line, first :: others ++ rest⟩ =
      .ok (first :: others) ⟨line, rest⟩ := by
    rw [Scanner.takeUntil_eq, ahead, Cursor.past_append, feedless, Nat.add_zero]
  refine bind_of_error ((bind_of_ok (Scanner.skip_eq_of_stops visible line)).trans
    ((bind_of_ok taken).trans ?_))
  simp only [List.head?_cons, begins, Bool.not_false, ↓reduceIte]
  exact bind_of_error rfl

/-- A record with a malformed name is an item that is reported, and a recovery goes on behind the
name. -/
theorem next?_malformed (options : Options) (line : Nat) :
    Item.next? options ⟨line, bad ++ rest⟩ =
      some (.malformed (.invalidName (String.ofList bad)), line,
        (Cursor.mk line rest).recover rest) := by
  have refused := record_malformed isBad ends options line
  rcases isBad.begins with ⟨first, others, rfl, -⟩
  have visible := isBad.visible first List.mem_cons_self
  have ordinary : first ∉ itemSigns := by
    have facts : ∀ sign ∈ itemSigns, nameStops.contains sign = true := forall_mem_of_all (by decide)
    intro sign
    have goes := isBad.characters first List.mem_cons_self
    rw [facts first sign] at goes
    cases goes
  have run : (Scanner.record options).run ⟨line, first :: (others ++ rest)⟩ = _ := refused
  rw [List.cons_append, Item.next?_cons options visible, Item.begun_ordinary options _ ordinary,
    Item.ofRecord, run]

end

theorem addAll_skip (registry : Registry) (options : Options) (rounds : Nat) (cursor : Cursor)
    (load : Load) : load.addAll registry options rounds (cursor.skip isGapOrLineEnd) =
      load.addAll registry options rounds cursor := by
  have blank : ∀ character ∈ cursor.ahead isGapOrLineEnd, isGapOrLineEnd character = true :=
    fun _ => List.mem_takeWhile_imp
  have moved := @addAll_blank registry options _ blank load rounds cursor.line
    (cursor.rest.dropWhile isGapOrLineEnd)
  rw [Cursor.ahead, List.takeWhile_append_dropWhile] at moved
  rw [moved, Cursor.skip, Cursor.past, Cursor.ahead, Cursor.drop_length_takeWhile]

theorem IsComment.feedless {comment rest : List Char} (isComment : IsComment comment rest) :
    comment.count '\n' = 0 := by
  cases isComment with
  | none => rfl
  | comment within ends =>
    refine List.count_eq_zero.mpr fun member => ?_
    rcases List.mem_cons.mp member with sign | inside
    · cases sign
    · exact within _ inside rfl

theorem addAll_comment {registry : Registry} {options : Options} {load : Load} {line : Nat}
    {comment rest : List Char} (isComment : IsComment comment rest) {rounds more : Nat}
    (enough : (comment ++ rest).length < rounds) (enoughMore : rest.length < more) :
    load.addAll registry options rounds ⟨line, comment ++ rest⟩ =
      load.addAll registry options more ⟨line, rest⟩ := by
  have feedless := isComment.feedless
  cases isComment with
  | none => exact Load.addAll_enough registry options load enough enoughMore
  | @comment characters rest within ends =>
    obtain ⟨rounds, rfl⟩ := Nat.exists_eq_succ_of_ne_zero (Nat.ne_zero_of_lt enough)
    have skipped : (Cursor.mk line ('#' :: characters ++ rest)).skip (· != '\n') =
        ⟨line, rest⟩ := by
      have passes : ∀ character ∈ '#' :: characters, (character != '\n') = true :=
        List.forall_mem_cons.mpr
          ⟨rfl, fun character member => bne_iff_ne.mpr (within character member)⟩
      have stops : Stops (· != '\n') rest := fun character first => by
        simpa using ends character first
      rw [Cursor.skip_run passes stops, feedless, Nat.add_zero]
    have next : Item.next? options ⟨line, '#' :: characters ++ rest⟩ =
        some (.nothing, line, ⟨line, rest⟩) := by
      rw [List.cons_append, Item.next?_cons options (by decide), Item.begun, ← List.cons_append,
        skipped]
    simp only [Load.addAll, next, Load.add]
    refine Load.addAll_enough registry options load ?_ enoughMore
    change rest.length < rounds
    simp only [List.cons_append, List.length_cons, List.length_append] at enough
    omega

theorem IsName.feedless {name : String} (isName : IsName name) : name.toList.count '\n' = 0 :=
  List.count_eq_zero.mpr fun member => absurd (isName.characters '\n' member) (by decide)

/-- A record whose name is malformed is reported once and changes nothing else but that no block can
be opened behind it. A text that would be its header and its attributes behind a valid name, and the
comment behind them, is passed over if and only if it has the form that a recovery passes over; the
load goes on behind it then. -/
theorem malformed_contributes_nothing {options : Options} {bad : List Char}
    (isBad : IsBadName bad) {good : String} (isName : IsName good) {body comment rest : List Char}
    (ends : EndsIn nameStops (body ++ (comment ++ rest))) {line start later : Nat} {record : Record}
    (read : Item.next? options ⟨line, good.toList ++ (body ++ (comment ++ rest))⟩ =
      some (.record record, start, ⟨later, comment ++ rest⟩)) (isComment : IsComment comment rest) :
    let text := bad ++ (body ++ (comment ++ rest))
    let reported (load : Load) : Load :=
      { load.warn line (.invalidName (String.ofList bad)) with latest := none }
    ∃ place : Cursor,
      (∀ (registry : Registry) (load : Load) (rounds : Nat),
        load.addAll registry options (rounds + 1) ⟨line, text⟩ =
          (reported load).addAll registry options rounds place) ∧
      (place = (Cursor.mk later rest).skip isGapOrLineEnd ↔ Passes (body ++ comment) rest) ∧
      (Passes (body ++ comment) rest →
        ∀ (registry : Registry) (load : Load) (rounds more : Nat), text.length < rounds →
          (comment ++ rest).length < more →
            load.addAll registry options rounds ⟨line, text⟩ =
              (reported load).addAll registry options more ⟨later, comment ++ rest⟩) := by
  intro text reported
  have onward (registry : Registry) (load : Load) (rounds : Nat) :
      load.addAll registry options (rounds + 1) ⟨line, text⟩ =
        (reported load).addAll registry options rounds
          ((Cursor.mk line (body ++ (comment ++ rest))).recover (body ++ (comment ++ rest))) := by
    simp only [Load.addAll, text, next?_malformed isBad ends, Load.add, reported]
  have whole : body ++ (comment ++ rest) = body ++ comment ++ rest := (List.append_assoc ..).symm
  have delimits : (Cursor.mk line (body ++ (comment ++ rest))).recover (body ++ (comment ++ rest)) =
      (Cursor.mk later rest).skip isGapOrLineEnd ↔ Passes (body ++ comment) rest := by
    rw [whole]
    constructor
    · intro same
      have there := congrArg Cursor.rest same
      rw [Cursor.rest_skip] at there
      exact Cursor.passes_of_rest_recover (Nat.le_refl _) there
    · intro passes
      have there := @Cursor.rest_recover_of_passes _ _ _ line passes (Nat.le_refl _)
      rw [← Cursor.rest_skip ⟨later, rest⟩] at there
      have reached := (Item.next?_takes read).1.end_line
      refine Cursor.eq_of_reaches (Cursor.reaches_recover _ _) (Cursor.reaches_skip _ _) ?_ there
      simp only [List.count_append, isName.feedless, isComment.feedless] at reached ⊢
      omega
  refine ⟨_, onward, delimits, fun passes registry load rounds more enough enoughMore => ?_⟩
  obtain ⟨rounds, rfl⟩ := Nat.exists_eq_succ_of_ne_zero (Nat.ne_zero_of_lt enough)
  have fewer : rest.length < rounds := by
    rcases isBad.begins with ⟨first, others, rfl, -⟩
    simp only [text, List.length_append, List.length_cons] at enough
    omega
  rw [onward, delimits.mpr passes, addAll_skip, addAll_comment isComment enoughMore fewer]

/-- The comma behind the line end continues the malformed record, quotes stand on one line, and the
comment goes with them. -/
theorem malformed_contributes_nothing_continued :
    let load : Load := ⟨(Arena.empty.alloc (.ofKind "t" .base)).2, ⟨0, 0⟩, [], none, #[]⟩
    IsBadName "!bad".toList ∧ IsName "bad" ∧
      Item.next? ⟨true⟩ ⟨1, "bad,x=1,\n , y=\"a b\"# note\nnext".toList⟩ =
        some (.record ⟨"bad", "", [("x", .int 1), ("y", .text "a b")], false⟩, 1,
          ⟨2, "# note\nnext".toList⟩) ∧
      Passes ",x=1,\n , y=\"a b\"# note".toList "\nnext".toList ∧
      load.addAll .standard ⟨true⟩ 100 ⟨1, "!bad,x=1,\n , y=\"a b\"# note\nnext".toList⟩ =
        Load.addAll .standard ⟨true⟩ 100 ⟨2, "# note\nnext".toList⟩
          ⟨load.arena, ⟨0, 0⟩, [], none, #[⟨1, .invalidName "!bad"⟩]⟩ := by
  intro load
  have isBad : IsBadName "!bad".toList :=
    ⟨⟨'!', "bad".toList, rfl, by decide +kernel⟩, forall_mem_of_all (by decide)⟩
  have isName : IsName "bad" := ⟨by rintro _ ⟨⟩; decide +kernel, forall_mem_of_all (by decide)⟩
  have ends : EndsIn nameStops
      (",x=1,\n , y=\"a b\"".toList ++ ("# note".toList ++ "\nnext".toList)) := by
    rintro _ ⟨⟩
    decide
  have read : Item.next? ⟨true⟩ ⟨1, "bad".toList ++
      (",x=1,\n , y=\"a b\"".toList ++ ("# note".toList ++ "\nnext".toList))⟩ =
      some (.record ⟨"bad", "", [("x", .int 1), ("y", .text "a b")], false⟩, 1,
        ⟨2, "# note".toList ++ "\nnext".toList⟩) := by decide +kernel
  have isComment : IsComment "# note".toList "\nnext".toList :=
    .comment (forall_mem_of_all (by decide)) (by rintro _ ⟨⟩; decide)
  have passes : Passes (",x=1,\n , y=\"a b\"".toList ++ "# note".toList) "\nnext".toList := by
    refine @Passes.comma ",x=1,".toList "\n ".toList " y=\"a b\"# note".toList _
      (forall_mem_of_all (by decide)) (forall_mem_of_all (by decide))
      ⟨'\n', [' '], rfl, by decide⟩ ?_
    exact @Passes.last " y=\"a b\"# note".toList [] _ (forall_mem_of_all (by decide)) nofun
      (by rintro _ ⟨⟩; decide) (by decide)
  rcases malformed_contributes_nothing isBad isName ends read isComment with ⟨place, -, -, onward⟩
  exact ⟨isBad, isName, read, passes, onward passes .standard load 100 100 (by decide) (by decide)⟩

/-- A comma at the end of a line continues a record, but no malformed one: what would be an
attribute becomes a record. -/
theorem malformed_splits :
    let arena := (Arena.empty.alloc (.ofKind "t" .base)).2
    let loaded := load "!bad,x=1,\n  y\nnext" arena .standard ⟨0, 0⟩ ⟨true⟩
    Item.next? ⟨true⟩ ⟨1, "bad,x=1,\n  y\nnext".toList⟩ =
        some (.record ⟨"bad", "", [("x", .int 1), ("y", .text "")], false⟩, 1,
          ⟨2, "\nnext".toList⟩) ∧
      loaded.1 = [⟨1, .invalidName "!bad"⟩] ∧
      (loaded.2.node? ⟨1, 0⟩).map (·.name) = some "y" :=
  ⟨by decide +kernel, by decide +kernel, by decide +kernel⟩

end RecordGraph.Document
