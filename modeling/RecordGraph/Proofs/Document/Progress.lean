import RecordGraph.Document.Loading
import RecordGraph.Proofs.Document.Records

/-!
# Reading goes forward

Whatever a scanner meets, it leaves the cursor behind some of the text, on the line that this text
leads to. Each item of a document takes a character at least, so a load has rounds enough.
-/

namespace RecordGraph.Document

/-! ## Places ahead -/

/-- The text between two places was passed over, and its line feeds were counted. -/
def Cursor.Reaches (cursor later : Cursor) : Prop :=
  ∃ taken, cursor.rest = taken ++ later.rest ∧ later.line = cursor.line + taken.count '\n'

namespace Cursor

variable {cursor middle later : Cursor}

theorem Reaches.refl (cursor : Cursor) : cursor.Reaches cursor := ⟨[], rfl, rfl⟩

theorem Reaches.trans (first : cursor.Reaches middle) (second : middle.Reaches later) :
    cursor.Reaches later := by
  rcases first with ⟨taken, rest, line⟩
  rcases second with ⟨more, restMiddle, lineMiddle⟩
  refine ⟨taken ++ more, ?_, ?_⟩
  · rw [rest, restMiddle, List.append_assoc]
  · rw [lineMiddle, line, List.count_append, Nat.add_assoc]

theorem Reaches.suffix (reaches : cursor.Reaches later) : later.rest <:+ cursor.rest := by
  rcases reaches with ⟨taken, rest, -⟩
  exact ⟨taken, rest.symm⟩

theorem Reaches.length_le (reaches : cursor.Reaches later) :
    later.rest.length ≤ cursor.rest.length :=
  reaches.suffix.length_le

theorem Reaches.end_line (reaches : cursor.Reaches later) :
    later.line + later.rest.count '\n' = cursor.line + cursor.rest.count '\n' := by
  rcases reaches with ⟨taken, rest, line⟩
  rw [rest, line, List.count_append, Nat.add_assoc]

theorem Reaches.line_le (reaches : cursor.Reaches later) :
    later.line ≤ cursor.line + cursor.rest.count '\n' := by
  have ends := reaches.end_line
  omega

theorem reaches_past {taken : List Char} (front : taken <+: cursor.rest) :
    cursor.Reaches (cursor.past taken) := by
  rcases front with ⟨behind, same⟩
  refine ⟨taken, ?_, rfl⟩
  simp [past, ← same]

theorem reaches_skip (cursor : Cursor) (test : Char → Bool) : cursor.Reaches (cursor.skip test) :=
  reaches_past (List.takeWhile_prefix test)

theorem reaches_next (cursor : Cursor) : cursor.Reaches cursor.next :=
  reaches_past (List.take_prefix 1 cursor.rest)

theorem length_next_lt (ahead : cursor.rest ≠ []) :
    cursor.next.rest.length < cursor.rest.length := by
  obtain ⟨first, others, same⟩ := List.exists_cons_of_ne_nil ahead
  simp [next, past, same]

theorem ne_nil_of_isAt {sign : Char} (stands : cursor.isAt sign = true) : cursor.rest ≠ [] := by
  intro nothing
  simp [isAt, peek, nothing] at stands

theorem reaches_recover (rounds : List Char) (cursor : Cursor) :
    cursor.Reaches (cursor.recover rounds) := by
  induction rounds generalizing cursor with
  | nil => exact .refl cursor
  | cons round rounds induction =>
    unfold recover
    have skipped := (cursor.reaches_skip fun character => !recordEnds.contains character).trans
      (reaches_skip _ isGapOrLineEnd)
    simp only
    split
    · exact skipped.trans ((reaches_next _).trans (induction _))
    · exact skipped

end Cursor

/-! ## Scanners -/

namespace Scanner

def place : EStateM.Result Problem Cursor α → Cursor
  | .ok _ cursor => cursor
  | .error _ cursor => cursor

def Forward (scanner : Scanner α) : Prop :=
  ∀ cursor : Cursor, cursor.Reaches (place (scanner cursor))

variable {scanner : Scanner α} {next : α → Scanner β}

theorem Forward.reaches (forward : Forward scanner) {cursor later : Cursor} {result : α}
    (ran : scanner cursor = .ok result later) : cursor.Reaches later := by
  have reaches := forward cursor
  rwa [ran] at reaches

theorem forward_pure (result : α) : Forward (pure result) := fun cursor => .refl cursor

theorem forward_throw (problem : Problem) : Forward (throw problem : Scanner α) :=
  fun cursor => .refl cursor

theorem forward_get : Forward (get : Scanner Cursor) := fun cursor => .refl cursor

theorem Forward.bind (forward : Forward scanner) (onward : ∀ result, Forward (next result)) :
    Forward (scanner >>= next) := by
  intro cursor
  have first := forward cursor
  cases ran : scanner cursor with
  | ok result later =>
    rw [ran] at first
    have both : (scanner >>= next) cursor = next result later := by
      simp only [Bind.bind, EStateM.bind, ran]
    rw [both]
    exact first.trans (onward result later)
  | error problem later =>
    rw [ran] at first
    have both : (scanner >>= next) cursor = .error problem later := by
      simp only [Bind.bind, EStateM.bind, ran]
    rw [both]
    exact first

theorem forward_advance : Forward advance := Cursor.reaches_next

theorem forward_skip (test : Char → Bool) : Forward (skip test) := (Cursor.reaches_skip · test)

theorem forward_takeUntil (stops : List Char) : Forward (takeUntil stops) :=
  (Cursor.reaches_skip · fun character => !stops.contains character)

theorem forward_expect (allowed : List Char) : Forward (expect allowed) := by
  refine forward_get.bind fun cursor => ?_
  split
  · exact forward_pure ()
  · split
    · exact forward_pure ()
    · exact forward_throw _

theorem reaches_readText (quoted : Bool) (line : Nat) (read rest : List Char) :
    (Cursor.mk line rest).Reaches (readText quoted line read rest).2 := by
  have step {line later : Nat} (taken : List Char) {rest : List Char} {finish : Cursor}
      (onward : (Cursor.mk later rest).Reaches finish) (lines : later = line + taken.count '\n') :
      (Cursor.mk line (taken ++ rest)).Reaches finish :=
    .trans ⟨taken, rfl, lines⟩ onward
  fun_induction readText quoted line read rest with
  | case1 => exact .refl _
  | case2 => exact ⟨['\\'], rfl, rfl⟩
  | case3 quoted line read rest induction => exact step ['\\', 'n'] induction rfl
  | case4 quoted line read rest induction => exact step ['\\', 't'] induction rfl
  | case5 quoted line read rest induction => exact step ['\\', '\r', '\n'] induction rfl
  | case6 quoted line read rest _ induction => exact step ['\\', '\r'] induction rfl
  | case7 quoted line read rest induction => exact step ['\\', '\n'] induction rfl
  | case8 quoted line read escaped rest _ _ _ _ visible induction =>
    have visible : escaped ≠ '\n' := visible
    exact step ['\\', escaped] induction (by simp [visible])
  | case9 quoted line read rest induction => exact step ['"'] induction rfl
  | case10 | case13 => exact .refl _
  | case11 line read character rest _ _ _ _ _ _ _ _ visible induction
  | case12 quoted line read character rest _ _ _ _ _ _ _ _ visible _ _ induction
  | case14 quoted line read character rest _ _ _ _ _ _ _ _ visible _ _ _ induction =>
    exact step [character] induction (by simp [(not_or.mp visible).2])

theorem forward_text : Forward text := fun cursor =>
  reaches_readText false cursor.line [] cursor.rest

theorem forward_literal : Forward literal :=
  (forward_takeUntil _).bind fun _ => forward_pure _

theorem forward_value : Forward value := by
  refine forward_get.bind fun cursor => ?_
  split
  · split
    · exact forward_text
    · exact forward_literal
  · exact forward_literal

theorem forward_pair : Forward pair := by
  refine (forward_skip _).bind fun _ => (forward_takeUntil _).bind fun key =>
    (forward_skip _).bind fun _ => forward_get.bind fun cursor => ?_
  split
  · exact forward_advance.bind fun _ => (forward_skip _).bind fun _ =>
      forward_value.bind fun _ => forward_pure _
  · split
    · exact forward_pure _
    · exact forward_pure _

theorem forward_pairs (rounds : List Char) : Forward (pairs rounds) := by
  induction rounds with
  | nil => exact forward_pure _
  | cons round rounds induction =>
    refine forward_get.bind fun cursor => ?_
    split
    · exact forward_pure _
    · refine forward_pair.bind fun first => (forward_skip _).bind fun _ =>
        forward_get.bind fun behind => ?_
      split
      · refine forward_advance.bind fun _ => (forward_skip _).bind fun _ =>
          forward_get.bind fun ahead => ?_
        split
        · exact forward_pure _
        · exact induction.bind fun _ => forward_pure _
      · exact forward_pure _

theorem forward_attributes : Forward attributes := by
  refine forward_get.bind fun cursor => ?_
  split
  · exact forward_advance.bind fun _ => (forward_skip _).bind fun _ =>
      forward_get.bind fun _ => forward_pairs _
  · exact (forward_skip _).bind fun _ => forward_get.bind fun _ => forward_pairs _

def headed (begins : Char → Bool) (problem : String → Problem) (taken : List Char) :
    Scanner String := do
  match taken.head? with
  | some first => if !begins first then throw (problem (String.ofList taken))
  | none => pure ()
  skip isGap
  expect headerEnds
  return String.ofList taken

theorem forward_headed (begins : Char → Bool) (problem : String → Problem) (taken : List Char) :
    Forward (headed begins problem taken) := by
  have behind : Forward (do
      skip isGap
      expect headerEnds
      return String.ofList taken) :=
    (forward_skip _).bind fun _ => (forward_expect _).bind fun _ => forward_pure _
  unfold headed
  split
  · split
    · exact (forward_throw _).bind fun _ => behind
    · exact behind
  · exact behind

theorem forward_name : Forward name :=
  (forward_skip _).bind fun _ => (forward_takeUntil _).bind fun taken =>
    forward_headed beginsName .invalidName taken

theorem forward_typeName : Forward typeName := by
  have headed : Forward (do
      let taken ← takeUntil typeStops
      headed Text.isAlphabetic .invalidType taken) :=
    (forward_takeUntil _).bind fun taken => forward_headed Text.isAlphabetic .invalidType taken
  refine forward_get.bind fun cursor => ?_
  split
  · exact forward_advance.bind fun _ => (forward_skip _).bind fun _ => headed
  · exact headed

theorem forward_record (options : Options) : Forward (record options) := by
  refine forward_name.bind fun name => ?_
  split
  · exact forward_typeName.bind fun typeName => forward_attributes.bind fun _ => forward_pure _
  · exact forward_attributes.bind fun _ => forward_pure _

/-! ## Scanners that take something -/

def Takes (scanner : Scanner α) (cursor : Cursor) : Prop :=
  (place (scanner cursor)).rest.length < cursor.rest.length

variable {cursor later : Cursor}

theorem Takes.bind (takes : Takes scanner cursor) (onward : ∀ result, Forward (next result)) :
    Takes (scanner >>= next) cursor := by
  unfold Takes at takes ⊢
  cases ran : scanner cursor with
  | ok result later =>
    rw [ran] at takes
    simp only [Bind.bind, EStateM.bind, ran]
    exact Nat.lt_of_le_of_lt (onward result later).length_le takes
  | error problem later =>
    rw [ran] at takes
    simp only [Bind.bind, EStateM.bind, ran]
    exact takes

theorem takes_bind {result : α} (ran : scanner cursor = .ok result later)
    (stays : later.rest = cursor.rest) (takes : Takes (next result) later) :
    Takes (scanner >>= next) cursor := by
  unfold Takes at takes ⊢
  simp only [Bind.bind, EStateM.bind, ran]
  rwa [← stays]

theorem takes_advance (ahead : cursor.rest ≠ []) : Takes advance cursor :=
  Cursor.length_next_lt ahead

theorem takes_takeUntil {stops : List Char} {first : Char} {others : List Char} {line : Nat}
    (goes : stops.contains first = false) : Takes (takeUntil stops) ⟨line, first :: others⟩ := by
  have taken : (place (takeUntil stops ⟨line, first :: others⟩)).rest =
      others.dropWhile fun character => !stops.contains character := by
    change (Cursor.skip ⟨line, first :: others⟩ fun character => !stops.contains character).rest = _
    rw [Cursor.rest_skip, List.dropWhile_cons, goes]
    rfl
  rw [Takes, taken]
  exact Nat.lt_succ_of_le (List.dropWhile_suffix _).length_le

theorem skip_eq_of_stops {test : Char → Bool} {rest : List Char} (stops : Text.Stops test rest)
    (line : Nat) : skip test ⟨line, rest⟩ = .ok () ⟨line, rest⟩ := by
  have same := Cursor.skip_nothing stops line
  change EStateM.Result.ok () ((Cursor.mk line rest).skip test) = _
  rw [same]

variable {line : Nat} {first : Char} {others : List Char}

theorem takes_name (visible : isGap first = false) (goes : nameStops.contains first = false) :
    Takes name ⟨line, first :: others⟩ :=
  takes_bind (skip_eq_of_stops (Text.stops_cons.mpr visible) line) rfl
    ((takes_takeUntil goes).bind fun taken => forward_headed beginsName .invalidName taken)

theorem takes_attributes (sign : first = ',' ∨ first = '=') :
    Takes attributes ⟨line, first :: others⟩ := by
  refine takes_bind rfl rfl ?_
  rcases sign with rfl | rfl
  · exact (takes_advance (List.cons_ne_nil _ _)).bind fun _ => (forward_skip _).bind fun _ =>
      forward_get.bind fun _ => forward_pairs _
  · have stops : Text.Stops isGap ('=' :: others) := Text.stops_cons.mpr (by decide)
    have keyless : takeUntil keyStops ⟨line, '=' :: others⟩ = .ok [] ⟨line, '=' :: others⟩ :=
      run_takeUntil_nothing rfl ⟨'=', others, rfl, rfl⟩ line
    have pair : Takes pair ⟨line, '=' :: others⟩ :=
      takes_bind (skip_eq_of_stops stops line) rfl <| takes_bind keyless rfl <|
        takes_bind (skip_eq_of_stops stops line) rfl <| takes_bind rfl rfl <|
          (takes_advance (List.cons_ne_nil _ _)).bind fun _ => (forward_skip _).bind fun _ =>
            forward_value.bind fun _ => forward_pure _
    refine takes_bind (skip_eq_of_stops stops line) rfl (takes_bind rfl rfl ?_)
    refine takes_bind rfl rfl (pair.bind fun found => (forward_skip _).bind fun _ =>
      forward_get.bind fun behind => ?_)
    split
    · refine forward_advance.bind fun _ => (forward_skip _).bind fun _ =>
        forward_get.bind fun ahead => ?_
      split
      · exact forward_pure _
      · exact (forward_pairs _).bind fun _ => forward_pure _
    · exact forward_pure _

theorem takes_typeName : Takes typeName ⟨line, '=' :: others⟩ := by
  apply takes_bind rfl rfl
  exact (takes_advance (List.cons_ne_nil _ _)).bind fun _ => (forward_skip _).bind fun _ =>
    (forward_takeUntil _).bind fun taken => forward_headed Text.isAlphabetic .invalidType taken

theorem takes_record (options : Options) (visible : isGapOrLineEnd first = false)
    (ordinary : first ∉ itemSigns) : Takes (record options) ⟨line, first :: others⟩ := by
  cases goes : nameStops.contains first with
  | false =>
    refine (takes_name (not_isGap_of_not_blank visible) goes).bind fun name => ?_
    split
    · exact forward_typeName.bind fun typeName => forward_attributes.bind fun _ => forward_pure _
    · exact forward_attributes.bind fun _ => forward_pure _
  | true =>
    have sign : first = ',' ∨ first = '=' := by
      have stop := List.contains_iff_mem.mp goes
      simp only [nameStops, itemSigns, List.mem_cons, List.not_mem_nil, or_false, not_or]
        at stop ordinary
      simp only [isGapOrLineEnd, isGap, Bool.or_eq_false_iff, beq_eq_false_iff_ne] at visible
      grind
    have isName : IsName "" := ⟨fun _ absent => (by cases absent), List.forall_mem_nil _⟩
    have unnamed : name ⟨line, first :: others⟩ = .ok "" ⟨line, first :: others⟩ :=
      @run_name "" isName first others (by rcases sign with rfl | rfl <;> decide) line
    refine takes_bind unnamed rfl ?_
    split
    · rcases sign with rfl | rfl
      · have untyped : typeName ⟨line, ',' :: others⟩ = .ok "" ⟨line, ',' :: others⟩ :=
          run_typeName .omitted ⟨others, .inl rfl⟩ line
        exact takes_bind untyped rfl ((takes_attributes (.inl rfl)).bind fun _ => forward_pure _)
      · exact takes_typeName.bind fun typeName => forward_attributes.bind fun _ => forward_pure _
    · exact (takes_attributes sign).bind fun _ => forward_pure _

end Scanner

/-! ## Items -/

theorem reaches_ofRecord (options : Options) (cursor : Cursor) :
    (Scanner.place (Scanner.record options cursor)).Reaches (Item.ofRecord options cursor).2 := by
  have same : (Scanner.record options).run cursor = Scanner.record options cursor := rfl
  unfold Item.ofRecord
  rw [same]
  cases ran : Scanner.record options cursor with
  | ok found later => exact .refl later
  | error problem later => exact later.reaches_recover _

def Item.begun (options : Options) (cursor : Cursor) : Char → Item × Cursor
  | '#' => (.nothing, cursor.skip (· != '\n'))
  | ';' => (.nothing, cursor.next)
  | '{' | '<' => (.opening, cursor.next)
  | '}' | '>' => (.closing, cursor.next)
  | _ => ofRecord options cursor

theorem Item.begun_ordinary (options : Options) (cursor : Cursor) {first : Char}
    (ordinary : first ∉ itemSigns) : begun options cursor first = ofRecord options cursor := by
  simp only [itemSigns, List.mem_cons, List.not_mem_nil, or_false, not_or] at ordinary
  unfold begun
  split <;> simp_all

theorem Item.next?_cons (options : Options) {line : Nat} {first : Char} {others : List Char}
    (visible : isGapOrLineEnd first = false) :
    Item.next? options ⟨line, first :: others⟩ =
      some ((begun options ⟨line, first :: others⟩ first).1, line,
        (begun options ⟨line, first :: others⟩ first).2) := by
  have stops : Text.Stops isGapOrLineEnd (first :: others) := Text.stops_cons.mpr visible
  have front := Cursor.skip_nothing stops line
  by_cases ordinary : first ∈ itemSigns
  · simp only [itemSigns, List.mem_cons, List.not_mem_nil, or_false] at ordinary
    rcases ordinary with rfl | rfl | rfl | rfl | rfl | rfl <;>
      simp only [Item.next?, front, Cursor.peek_cons, begun]
  · rw [next?_other options ordinary visible, begun_ordinary options _ ordinary]

theorem Item.next?_eq_some_iff {options : Options} {cursor later : Cursor} {item : Item}
    {line : Nat} :
    Item.next? options cursor = some (item, line, later) ↔
      ∃ first others, cursor.skip isGapOrLineEnd = ⟨line, first :: others⟩ ∧
        isGapOrLineEnd first = false ∧
        begun options ⟨line, first :: others⟩ first = (item, later) := by
  have same := Cursor.rest_skip cursor isGapOrLineEnd
  have fails := List.head?_dropWhile_not isGapOrLineEnd cursor.rest
  rw [← same] at fails
  have skipped : Item.next? options cursor = Item.next? options (cursor.skip isGapOrLineEnd) := by
    have again : (cursor.skip isGapOrLineEnd).skip isGapOrLineEnd = cursor.skip isGapOrLineEnd := by
      generalize cursor.skip isGapOrLineEnd = front at fails
      rcases front with ⟨line, _ | ⟨first, others⟩⟩
      · rfl
      · exact Cursor.skip_nothing (Text.stops_cons.mpr (by simpa using fails)) line
    simp only [Item.next?, again]
  rw [skipped]
  generalize cursor.skip isGapOrLineEnd = front at fails
  rcases front with ⟨lineThere, _ | ⟨first, others⟩⟩
  · constructor
    · rintro ⟨⟩
    · rintro ⟨_, _, ⟨⟩, -⟩
  · have visible : isGapOrLineEnd first = false := by simpa using fails
    rw [Item.next?_cons options visible]
    constructor
    · rintro ⟨⟩
      exact ⟨first, others, rfl, visible, rfl⟩
    · rintro ⟨_, _, ⟨⟩, -, begins⟩
      rw [begins]

theorem Item.next?_eq_none_iff {options : Options} {cursor : Cursor} :
    Item.next? options cursor = none ↔
      ∀ character ∈ cursor.rest, isGapOrLineEnd character = true := by
  have same := cursor.rest_skip isGapOrLineEnd
  have fails := List.head?_dropWhile_not isGapOrLineEnd cursor.rest
  rw [← same] at fails
  rw [← List.dropWhile_eq_nil_iff, ← same]
  cases front : cursor.skip isGapOrLineEnd with
  | mk line rest =>
    cases rest with
    | nil => simp [next?, front, Cursor.peek]
    | cons first others =>
      rw [front] at fails
      have found : next? options cursor = some ((begun options ⟨line, first :: others⟩ first).1,
          line, (begun options ⟨line, first :: others⟩ first).2) :=
        next?_eq_some_iff.mpr ⟨first, others, front, by simpa using fails, rfl⟩
      simp [found]

theorem Item.begun_takes {options : Options} {line : Nat} {first : Char} {others : List Char}
    {item : Item} {later : Cursor} (visible : isGapOrLineEnd first = false)
    (begins : begun options ⟨line, first :: others⟩ first = (item, later)) :
    (Cursor.mk line (first :: others)).Reaches later ∧
      later.rest.length < (first :: others).length := by
  by_cases ordinary : first ∈ itemSigns
  · have moved : later = (Cursor.mk line (first :: others)).next ∨
        first = '#' ∧ later = (Cursor.mk line (first :: others)).skip (· != '\n') := by
      simp only [itemSigns, List.mem_cons, List.not_mem_nil, or_false] at ordinary
      rcases ordinary with rfl | rfl | rfl | rfl | rfl | rfl <;> cases begins
      · exact .inr ⟨rfl, rfl⟩
      all_goals exact .inl rfl
    rcases moved with rfl | ⟨rfl, rfl⟩
    · exact ⟨Cursor.reaches_next _, Cursor.length_next_lt (List.cons_ne_nil _ _)⟩
    · refine ⟨Cursor.reaches_skip _ _, ?_⟩
      rw [Cursor.rest_skip, List.dropWhile_cons_of_pos (by decide)]
      exact Nat.lt_succ_of_le (List.dropWhile_suffix _).length_le
  · rw [begun_ordinary options _ ordinary] at begins
    have found := reaches_ofRecord options ⟨line, first :: others⟩
    rw [begins] at found
    have takes : Scanner.Takes (Scanner.record options) ⟨line, first :: others⟩ :=
      Scanner.takes_record options visible ordinary
    exact ⟨(Scanner.forward_record options _).trans found, Nat.lt_of_le_of_lt found.length_le takes⟩

theorem Item.next?_takes {options : Options} {cursor later : Cursor} {item : Item} {line : Nat}
    (next : Item.next? options cursor = some (item, line, later)) :
    cursor.Reaches later ∧ later.rest.length < cursor.rest.length := by
  have skipped := cursor.reaches_skip isGapOrLineEnd
  rcases next?_eq_some_iff.mp next with ⟨first, others, front, visible, begins⟩
  rw [front] at skipped
  have taken := begun_takes visible begins
  exact ⟨skipped.trans taken.1, Nat.lt_of_lt_of_le taken.2 skipped.length_le⟩

theorem Load.addAll_enough (registry : Registry) (options : Options) {rounds more : Nat}
    {cursor : Cursor} (load : Load) (enough : cursor.rest.length < rounds)
    (enoughMore : cursor.rest.length < more) :
    load.addAll registry options rounds cursor = load.addAll registry options more cursor := by
  induction rounds generalizing more cursor load with
  | zero => cases enough
  | succ rounds induction =>
    obtain ⟨more, rfl⟩ := Nat.exists_eq_succ_of_ne_zero (Nat.ne_zero_of_lt enoughMore)
    unfold addAll
    cases next : Item.next? options cursor with
    | none => rfl
    | some found =>
      rcases found with ⟨item, line, later⟩
      have takes := (Item.next?_takes next).2
      exact induction _ (by omega) (by omega)

end RecordGraph.Document
