import RecordGraph.Proofs.Document.Composition
import RecordGraph.Proofs.Path.Cursor

/-!
# What stands behind a record

A record is read up to the end of its line, a `;`, a brace or a comment, and the next one begins
behind that. Only behind a bare key or a literal it ends at a blank as well, and whatever else
stands on the line is taken for the next record. What is left behind a header is reported.
-/

namespace RecordGraph.Document
open Text

theorem Cursor.skip_of_stops {cursor : Cursor} {test : Char → Bool}
    (stops : Stops test cursor.rest) : cursor.skip test = cursor :=
  skip_nothing stops cursor.line

/-! ## What stands behind an attribute -/

def attrEnds : List Char := ',' :: '#' :: recordEnds

/-- The text is at its end, or a character of the list comes next. -/
def EndsIn (ends rest : List Char) : Prop :=
  ∀ character, rest.head? = some character → character ∈ ends

inductive LastWord (word : List Char) : String × Value → Prop where
  | key : (∀ character ∈ word, keyStops.contains character = false) →
      LastWord word (String.ofList word, .text "")
  | literal {key : String} : (∀ character ∈ word, literalStops.contains character = false) →
      LastWord word (key, .ofLiteral (String.ofList word))

/-- The text ends in a bare key or a literal of the last attribute, and in blanks behind it. -/
def EndsInWord (attrs : List (String × Value)) (taken : List Char) : Prop :=
  ∃ others last front word gap, attrs = others ++ [last] ∧ taken = front ++ (word ++ gap) ∧
    LastWord word last ∧ word ≠ [] ∧ gap ≠ [] ∧ ∀ character ∈ gap, isGap character = true

theorem EndsInWord.append {attrs : List (String × Value)} {taken : List Char}
    (ends : EndsInWord attrs taken) (more : List (String × Value)) (front : List Char) :
    EndsInWord (more ++ attrs) (front ++ taken) := by
  rcases ends with ⟨others, last, before, word, gap, rfl, rfl, isLast, present, blank⟩
  exact ⟨more ++ others, last, front ++ before, word, gap, (List.append_assoc ..).symm,
    (List.append_assoc ..).symm, isLast, present, blank⟩

def Settles (ends : List Char) (attrs : List (String × Value)) (start finish : Cursor) : Prop :=
  EndsIn ends finish.rest ∨
    ∃ taken, start.rest = taken ++ finish.rest ∧ EndsInWord attrs taken

theorem Settles.append {ends : List Char} {attrs : List (String × Value)}
    {start middle finish : Cursor} (settles : Settles ends attrs middle finish)
    (reaches : start.Reaches middle) (more : List (String × Value)) :
    Settles ends (more ++ attrs) start finish := by
  rcases settles with closed | ⟨taken, rest, word⟩
  · exact .inl closed
  · rcases reaches.suffix with ⟨front, same⟩
    exact .inr ⟨front ++ taken, by rw [← same, rest, List.append_assoc], word.append more front⟩

/-- A stop that is met behind all blanks ends an attribute, if all that could be met there do. -/
theorem EndsIn.attr {stops rest : List Char} (ends : EndsIn stops rest) (visible : Stops isGap rest)
    (among : ∀ character ∈ stops, isGap character = true ∨ character ∈ attrEnds ∨
      rest.head? ≠ some character) : EndsIn attrEnds rest := by
  intro character first
  rcases among character (ends character first) with gap | ends | other
  · rw [visible character first] at gap
    cases gap
  · exact ends
  · exact absurd first other

theorem EndsIn.visible {rest : List Char} (ends : EndsIn attrEnds rest) : Stops isGap rest :=
  have facts : ∀ character ∈ attrEnds, isGap character = false := forall_mem_of_all (by decide)
  fun character first => facts character (ends character first)

theorem endsIn_nil (stops : List Char) : EndsIn stops [] :=
  fun _ first => absurd first.symm (Option.some_ne_none _)

theorem endsIn_readText (quoted : Bool) (line : Nat) (read rest : List Char) :
    EndsIn attrEnds (readText quoted line read rest).2.rest := by
  have stops : ∀ character ∈ textStops, character ∈ attrEnds := forall_mem_of_all (by decide)
  fun_induction readText quoted line read rest with
  | case1 | case2 => exact endsIn_nil attrEnds
  | case10 quoted line read character rest _ _ _ _ _ _ _ _ ends =>
    rintro _ ⟨⟩
    rcases ends with rfl | rfl <;> decide
  | case13 quoted line read character rest _ _ _ _ _ _ _ _ _ _ _ stop =>
    rintro _ ⟨⟩
    exact stops character (List.contains_iff_mem.mp stop)
  | _ => assumption

namespace Scanner

variable {cursor finish : Cursor}

/-- Behind a run up to some stops and the blanks there, one of the stops comes next, unless there
were blanks. No blanks stand behind an empty run. -/
theorem behind_run (stops : List Char) (visible : Stops isGap cursor.rest) :
    let word := cursor.ahead fun character => !stops.contains character
    let behind := (cursor.past word).skip isGap
    Stops isGap behind.rest ∧ ∃ gap, (∀ character ∈ gap, isGap character = true) ∧
      cursor.rest = word ++ (gap ++ behind.rest) ∧ (gap = [] → EndsIn stops behind.rest) ∧
      (word = [] → gap = []) := by
  intro word behind
  have behindWord : (cursor.past word).rest =
      cursor.rest.dropWhile fun character => !stops.contains character := cursor.rest_skip _
  have behindGap : behind.rest = (cursor.past word).rest.dropWhile isGap := Cursor.rest_skip _ _
  have split : cursor.rest = word ++ (cursor.past word).rest := by
    rw [behindWord]
    exact List.takeWhile_append_dropWhile.symm
  have splitGap : (cursor.past word).rest =
      (cursor.past word).rest.takeWhile isGap ++ behind.rest := by
    rw [behindGap, List.takeWhile_append_dropWhile]
  refine ⟨by rw [behindGap]; exact stops_dropWhile _ _,
    (cursor.past word).rest.takeWhile isGap, fun _ => List.mem_takeWhile_imp, ?_, ?_, ?_⟩
  · rw [← splitGap]
    exact split
  · intro none character first
    rw [none, List.nil_append] at splitGap
    rw [← splitGap, behindWord] at first
    simpa using stops_dropWhile _ _ character first
  · intro none
    have same : (cursor.past word).rest = cursor.rest := by rw [split, none, List.nil_append]
    rw [same]
    exact @takeWhile_run _ [] _ nofun visible

/-- A run up to some stops ends the last attribute, or a word and blanks do. -/
theorem settles_run {stops : List Char} {last : String × Value} (visible : Stops isGap cursor.rest)
    (isLast : LastWord (cursor.ahead fun character => !stops.contains character) last) :
    let behind := (cursor.past (cursor.ahead fun character => !stops.contains character)).skip isGap
    (∀ character ∈ stops, isGap character = true ∨ character ∈ attrEnds ∨
      behind.rest.head? ≠ some character) →
    Settles attrEnds [last] cursor behind := by
  intro behind among
  rcases behind_run stops visible with ⟨visibleBehind, gap, blank, split, ends, wordless⟩
  by_cases none : gap = []
  · exact .inl ((ends none).attr visibleBehind among)
  · exact .inr ⟨_, split.trans (List.append_assoc ..).symm, [], last, [], _, gap, rfl, rfl, isLast,
      fun nothing => none (wordless nothing), none, blank⟩

theorem settles_value {key : String} {value : Value} (visible : Stops isGap cursor.rest)
    (ran : Scanner.value cursor = .ok value finish) :
    Settles attrEnds [(key, value)] cursor (finish.skip isGap) := by
  have literal : Scanner.literal cursor = .ok value finish →
      Settles attrEnds [(key, value)] cursor (finish.skip isGap) := by
    intro ran
    rcases bind_eq_ok_iff.mp ran with ⟨word, place, taken, ⟨⟩⟩
    cases taken
    refine settles_run visible (.literal fun character member => ?_) fun character stop => ?_
    · simpa using List.mem_takeWhile_imp member
    · have facts : ∀ character ∈ literalStops, isGap character = true ∨ character ∈ attrEnds :=
        forall_mem_of_all (by decide)
      exact (facts character stop).imp_right .inl
  unfold Scanner.value at ran
  rcases bind_eq_ok_iff.mp ran with ⟨here, place, taken, ran⟩
  cases taken
  cases ahead : cursor.peek with
  | none =>
    simp only [ahead] at ran
    exact literal ran
  | some character =>
    simp only [ahead] at ran
    split at ran
    · cases ran
      have ends := endsIn_readText false cursor.line [] cursor.rest
      exact .inl ((congrArg (EndsIn attrEnds ·.rest) (Cursor.skip_of_stops ends.visible)).mpr ends)
    · exact literal ran

theorem skip_eq (test : Char → Bool) (cursor : Cursor) :
    skip test cursor = .ok () (cursor.skip test) := rfl

theorem advance_eq (cursor : Cursor) : advance cursor = .ok () cursor.next := rfl

theorem takeUntil_eq (stops : List Char) (cursor : Cursor) :
    takeUntil stops cursor = .ok (cursor.ahead fun character => !stops.contains character)
      (cursor.past (cursor.ahead fun character => !stops.contains character)) := rfl

/-- An attribute is a key between blanks, and a value if a sign of equality stands behind. -/
theorem pair_eq (cursor : Cursor) :
    let start := cursor.skip isGap
    let word := start.ahead fun character => !keyStops.contains character
    let behind := (start.past word).skip isGap
    pair cursor = (if behind.isAt '=' then do
        advance
        skip isGap
        return some (String.ofList word, ← value)
      else if String.ofList word = "" then return none
      else return some (String.ofList word, .text "") : Scanner _) behind := by
  intro start word behind
  refine (bind_of_ok (skip_eq isGap cursor)).trans ?_
  refine (bind_of_ok (takeUntil_eq keyStops start)).trans ?_
  exact (bind_of_ok (skip_eq isGap _)).trans (bind_of_ok (get_eq behind))

theorem settles_pair {first : Option (String × Value)} (ran : pair cursor = .ok first finish) :
    Settles attrEnds first.toList cursor (finish.skip isGap) := by
  rw [pair_eq] at ran
  have reaches : cursor.Reaches (cursor.skip isGap) := cursor.reaches_skip isGap
  have visible : Stops isGap (cursor.skip isGap).rest := by
    rw [Cursor.rest_skip]
    exact stops_dropWhile _ _
  generalize cursor.skip isGap = start at ran reaches visible
  rcases behind_run keyStops visible with ⟨visibleBehind, gap, blank, split, ends, wordless⟩
  have onward : start.Reaches
      ((start.past (start.ahead fun character => !keyStops.contains character)).skip isGap) :=
    (start.reaches_skip _).trans (Cursor.reaches_skip _ isGap)
  have keyless : ∀ character ∈ start.ahead fun character => !keyStops.contains character,
      keyStops.contains character = false := fun character member => by
    simpa using List.mem_takeWhile_imp member
  have settles := settles_run visible (.key keyless)
  dsimp only at ran settles
  generalize (start.ahead fun character => !keyStops.contains character) = word at *
  generalize (start.past word).skip isGap = behind at *
  split at ran
  · rcases bind_eq_ok_iff.mp ran with ⟨_, place, taken, ran⟩
    cases taken
    rcases bind_eq_ok_iff.mp ran with ⟨_, place, taken, ran⟩
    cases taken
    rcases bind_eq_ok_iff.mp ran with ⟨value, place, taken, ⟨⟩⟩
    have visible : Stops isGap (behind.next.skip isGap).rest := by
      rw [Cursor.rest_skip]
      exact stops_dropWhile _ _
    exact (settles_value visible taken).append
      (reaches.trans (onward.trans (behind.reaches_next.trans (Cursor.reaches_skip _ isGap)))) []
  · rename_i bare
    have among : ∀ character ∈ keyStops, isGap character = true ∨ character ∈ attrEnds ∨
        behind.rest.head? ≠ some character := by
      have facts : ∀ character ∈ keyStops, isGap character = true ∨ character ∈ attrEnds ∨
          character = '=' := forall_mem_of_all (by decide)
      intro character stop
      refine (facts character stop).imp_right (.imp_right ?_)
      rintro rfl
      simpa [Cursor.isAt, Cursor.peek] using bare
    split at ran
    · rename_i empty
      cases ran
      rw [Cursor.skip_of_stops visibleBehind]
      have none : word = [] := by simpa using congrArg String.toList empty
      exact .inl ((ends (wordless none)).attr visibleBehind among)
    · cases ran
      rw [Cursor.skip_of_stops visibleBehind]
      exact (settles among).append reaches []

/-- Attributes are read up to the end of their record, or up to what is left behind a word and
blanks. -/
theorem settles_pairs {rounds : List Char} {attrs : List (String × Value)} {unfinished : Bool}
    (enough : cursor.rest.length ≤ rounds.length)
    (ran : pairs rounds cursor = .ok (attrs, unfinished) finish) :
    Settles ('#' :: recordEnds) attrs cursor finish := by
  have nothing {cursor : Cursor} (ended : cursor.rest = []) :
      EndsIn ('#' :: recordEnds) cursor.rest := by
    rw [ended]
    exact endsIn_nil _
  induction rounds generalizing cursor attrs unfinished with
  | nil =>
    cases ran
    exact .inl (nothing (List.length_eq_zero_iff.mp (Nat.le_zero.mp enough)))
  | cons round rounds induction =>
    unfold pairs at ran
    rw [bind_of_ok (get_eq cursor)] at ran
    split at ran
    · rename_i ended
      cases ran
      exact .inl (nothing (List.isEmpty_iff.mp ended))
    · rcases bind_eq_ok_iff.mp ran with ⟨first, place, taken, ran⟩
      rw [bind_of_ok (skip_eq isGap place), bind_of_ok (get_eq _)] at ran
      have settles := settles_pair taken
      have reaches := (forward_pair.reaches taken).trans (place.reaches_skip isGap)
      generalize place.skip isGap = behind at ran settles reaches
      split at ran
      · rename_i comma
        have next := behind.reaches_next.trans (Cursor.reaches_skip _ isGapOrLineEnd)
        have fewer : (behind.next.skip isGapOrLineEnd).rest.length ≤ rounds.length := by
          have taken := Cursor.length_next_lt (Cursor.ne_nil_of_isAt comma)
          have skipped := (Cursor.reaches_skip behind.next isGapOrLineEnd).length_le
          have before := reaches.length_le
          rw [List.length_cons] at enough
          omega
        rw [bind_of_ok (advance_eq behind), bind_of_ok (skip_eq isGapOrLineEnd _),
          bind_of_ok (get_eq _)] at ran
        split at ran
        · rename_i ended
          cases ran
          exact .inl (nothing (List.isEmpty_iff.mp ended))
        · rcases bind_eq_ok_iff.mp ran with ⟨⟨others, more⟩, last, onward, ⟨⟩⟩
          exact (induction fewer onward).append (reaches.trans next) first.toList
      · rename_i other
        cases ran
        refine settles.imp_left fun ends character ahead => ?_
        rcases List.mem_cons.mp (ends character ahead) with rfl | among
        · exact absurd (by simp [Cursor.isAt, Cursor.peek, ahead]) other
        · exact among

theorem settles_attributes {attrs : List (String × Value)} {unfinished : Bool}
    (ran : attributes cursor = .ok (attrs, unfinished) finish) :
    Settles ('#' :: recordEnds) attrs cursor finish := by
  unfold attributes at ran
  rw [bind_of_ok (get_eq cursor)] at ran
  split at ran
  · rw [bind_of_ok (advance_eq cursor), bind_of_ok (skip_eq isGapOrLineEnd _)] at ran
    have settles := settles_pairs (Nat.le_refl _) ran
    exact settles.append (cursor.reaches_next.trans (Cursor.reaches_skip _ _)) []
  · rw [bind_of_ok (skip_eq isGap cursor)] at ran
    have settles := settles_pairs (Nat.le_refl _) ran
    exact settles.append (cursor.reaches_skip _) []

/-- Behind a record its line ends, or a `;`, a brace or a comment comes next, or something else that
stands behind a bare key or a literal and blanks. -/
theorem settles_record {options : Options} {record : Record}
    (ran : Scanner.record options cursor = .ok record finish) :
    Settles ('#' :: recordEnds) record.attrs cursor finish := by
  rcases bind_eq_ok_iff.mp ran with ⟨name, named, taken, ran⟩
  have reaches := forward_name.reaches taken
  split at ran
  · rcases bind_eq_ok_iff.mp ran with ⟨typeName, typed, taken, ran⟩
    rcases bind_eq_ok_iff.mp ran with ⟨⟨attrs, unfinished⟩, place, read, ⟨⟩⟩
    exact (settles_attributes read).append (reaches.trans (forward_typeName.reaches taken)) []
  · rcases bind_eq_ok_iff.mp ran with ⟨_, _, ⟨⟩, ran⟩
    rcases bind_eq_ok_iff.mp ran with ⟨⟨attrs, unfinished⟩, place, read, ⟨⟩⟩
    exact (settles_attributes read).append reaches []

end Scanner

/-! ## What stands behind a header -/

def IsGap (gap : List Char) : Prop :=
  ∀ character ∈ gap, isGap character = true

inductive HeaderText (options : Options) : List Char → Prop where
  | name {label : String} {gap : List Char} : IsName label → IsGap gap → gap ≠ [] →
      HeaderText options (label.toList ++ gap)
  | type {label typeName : String} {before between gap : List Char} : options.typed = true →
      IsName label → IsGap before → IsGap between → IsTypeName typeName → IsGap gap → gap ≠ [] →
      HeaderText options
        (label.toList ++ (before ++ '=' :: (between ++ (typeName.toList ++ gap))))

namespace Scanner

variable {line : Nat} {first : Char} {gap rest : List Char}

theorem skip_isGap (blank : IsGap gap) (visible : Stops isGap rest) (line : Nat) :
    skip isGap ⟨line, gap ++ rest⟩ = .ok () ⟨line, rest⟩ := by
  have feedless : gap.count '\n' = 0 :=
    List.count_eq_zero.mpr fun member => absurd (blank '\n' member) (by decide)
  have skipped := Cursor.skip_run blank visible line
  rw [feedless, Nat.add_zero] at skipped
  rw [skip_eq, skipped]

section

variable {begins : Char → Bool} {problem : String → Problem} {taken : List Char}
  (begun : ∀ first, taken.head? = some first → begins first = true)

include begun

theorem headed_eq (blank : IsGap gap) (visible : Stops isGap rest) (line : Nat) :
    headed begins problem taken ⟨line, gap ++ rest⟩ =
      (do expect headerEnds; return String.ofList taken : Scanner String) ⟨line, rest⟩ := by
  unfold headed
  cases ahead : taken.head? with
  | none => exact bind_of_ok (skip_isGap blank visible line)
  | some first =>
    simp only [begun first ahead, Bool.not_true, Bool.false_eq_true, ↓reduceIte]
    exact bind_of_ok (skip_isGap blank visible line)

end

theorem expect_unexpected {allowed : List Char} (other : allowed.contains first = false)
    (line : Nat) (rest : List Char) :
    expect allowed ⟨line, first :: rest⟩ =
      .error (.unexpectedCharacter first) ⟨line, first :: rest⟩ := by
  refine (bind_of_ok (get_eq _)).trans ?_
  simp only [Cursor.peek_cons, other, Bool.false_eq_true, ↓reduceIte]
  rfl

theorem name_eq {label : String} (isName : IsName label) (stands : Stands nameStops rest)
    (visible : Stops isGap (label.toList ++ rest)) (line : Nat) :
    name ⟨line, label.toList ++ rest⟩ =
      headed beginsName .invalidName label.toList ⟨line, rest⟩ := by
  have taken : takeUntil nameStops ⟨line, label.toList ++ rest⟩ = .ok label.toList ⟨line, rest⟩ :=
    run_takeUntil rfl isName.characters stands line
  exact (bind_of_ok (skip_eq_of_stops visible line)).trans (bind_of_ok taken)

theorem typeName_eq {between : List Char} {typeName : String} (isTypeName : IsTypeName typeName)
    (blank : IsGap between) (stands : Stands typeStops rest) (line : Nat) :
    Scanner.typeName ⟨line, '=' :: (between ++ (typeName.toList ++ rest))⟩ =
      headed isAlphabetic .invalidType typeName.toList ⟨line, rest⟩ := by
  have visible : Stops isGap (typeName.toList ++ rest) := by
    rcases isTypeName.begins with ⟨first, others, same, -⟩
    have inside : first ∈ typeName.toList := by rw [same]; exact List.mem_cons_self
    rw [same, List.cons_append]
    exact stops_cons.mpr (not_isGap_of_not_blank (not_blank_of_passes isTypeName.characters
      (forall_mem_of_all (by decide)) first inside))
  have taken : takeUntil typeStops ⟨line, typeName.toList ++ rest⟩ =
      .ok typeName.toList ⟨line, rest⟩ := run_takeUntil rfl isTypeName.characters stands line
  have advanced : advance ⟨line, '=' :: (between ++ (typeName.toList ++ rest))⟩ =
      .ok () ⟨line, between ++ (typeName.toList ++ rest)⟩ := by
    rw [advance_eq, Cursor.next_cons (by decide)]
  refine (bind_of_ok (get_eq _)).trans ?_
  rw [Cursor.isAt_cons, beq_self_eq_true, if_pos rfl]
  refine (bind_of_ok advanced).trans ((bind_of_ok (skip_isGap blank visible line)).trans ?_)
  exact bind_of_ok taken

theorem stands_gap {stops : List Char}
    (blanks : stops.contains ' ' = true ∧ stops.contains '\t' = true) (blank : IsGap gap)
    (present : gap ≠ []) (rest : List Char) : Stands stops (gap ++ rest) := by
  obtain ⟨first, others, rfl⟩ := List.exists_cons_of_ne_nil present
  refine ⟨first, others ++ rest, rfl, ?_⟩
  have first := blank first List.mem_cons_self
  simp only [isGap, Bool.or_eq_true, beq_iff_eq] at first
  rcases first with rfl | rfl
  · exact blanks.1
  · exact blanks.2

theorem record_unexpected {options : Options} {header : List Char}
    (written : HeaderText options header) (visible : Stops isGap (header ++ first :: rest))
    (solid : isGap first = false) (other : headerEnds.contains first = false) (line : Nat) :
    record options ⟨line, header ++ first :: rest⟩ =
      .error (.unexpectedCharacter first) ⟨line, first :: rest⟩ := by
  have stops : Stops isGap (first :: rest) := stops_cons.mpr solid
  have refused {begins : Char → Bool} {problem : String → Problem} {taken gap : List Char}
      (begun : ∀ first, taken.head? = some first → begins first = true) (blank : IsGap gap) :
      headed begins problem taken ⟨line, gap ++ first :: rest⟩ =
        .error (.unexpectedCharacter first) ⟨line, first :: rest⟩ :=
    (headed_eq begun blank stops line).trans (bind_of_error (expect_unexpected other line rest))
  cases written with
  | @name label gap isName blank present =>
    rw [List.append_assoc] at visible ⊢
    have named := name_eq isName (stands_gap (by decide) blank present _) visible line
    exact bind_of_error (named.trans (refused isName.begins blank))
  | @type label typeName before between gap typed isName blankBefore blankBetween isTypeName blank
      present =>
    simp only [List.append_assoc, List.cons_append] at visible ⊢
    have stands : Stands nameStops (before ++ '=' :: (between ++ (typeName.toList ++
        (gap ++ first :: rest)))) := by
      by_cases none : before = []
      · rw [none]
        exact ⟨'=', _, rfl, rfl⟩
      · exact stands_gap (by decide) blankBefore none _
    have named := name_eq isName stands visible line
    rw [headed_eq isName.begins blankBefore (stops_cons.mpr rfl) line] at named
    have expected : expect headerEnds ⟨line, '=' :: (between ++ (typeName.toList ++
        (gap ++ first :: rest)))⟩ = .ok () _ := run_expect ⟨'=', _, rfl, rfl⟩ line
    have follows : Stands typeStops (gap ++ first :: rest) :=
      stands_gap (by decide) blank present _
    have typeRead := typeName_eq isTypeName blankBetween follows line
    refine (bind_of_ok (named.trans (bind_of_ok expected))).trans ?_
    rw [if_pos typed]
    refine bind_of_error (typeRead.trans (refused ?_ blank))
    intro initial ahead
    rcases isTypeName.begins with ⟨letter, others, same, isLetter⟩
    rw [same, List.head?_cons, Option.some.injEq] at ahead
    rwa [← ahead]

end Scanner
end RecordGraph.Document
