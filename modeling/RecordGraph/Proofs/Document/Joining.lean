import RecordGraph.Proofs.Document.Progress

/-!
# One text behind another

A text that is complete is read alike whether the document ends behind it or goes on with a line
end: nothing at its end waits for what comes next. The same holds of any text where nothing is put
behind it, so reading does not depend on the numbers of the lines either.
-/

namespace RecordGraph.Document
open Text

/-- The text does not end with a comma before blanks, nor with a backslash, alone or before a
carriage return. Each of these reaches over a line end. -/
structure Complete (text : List Char) : Prop where
  comma : ∀ gap, (∀ character ∈ gap, isGapOrLineEnd character = true) → ¬ ',' :: gap <:+ text
  backslash : ¬ ['\\'] <:+ text
  carriage : ¬ ['\\', '\r'] <:+ text

theorem Complete.suffix {text behind : List Char} (complete : Complete text)
    (suffix : behind <:+ text) : Complete behind where
  comma gap blank ends := complete.comma gap blank (ends.trans suffix)
  backslash ends := complete.backslash (ends.trans suffix)
  carriage ends := complete.carriage (ends.trans suffix)

theorem complete_of_last {last : Char} (visible : isGapOrLineEnd last = false)
    (plain : last ≠ ',' ∧ last ≠ '\\') (front : List Char) : Complete (front ++ [last]) := by
  have ends {behind : List Char} (suffix : behind <:+ front ++ [last]) (present : behind ≠ []) :
      behind.getLast? = some last := by
    rcases suffix with ⟨taken, same⟩
    have lasts := congrArg List.getLast? same
    rwa [List.getLast?_append_of_ne_nil _ present, List.getLast?_concat] at lasts
  refine ⟨fun gap blank suffix => ?_, fun suffix => ?_, fun suffix => ?_⟩
  · have member := List.mem_of_getLast? (ends suffix (List.cons_ne_nil _ _))
    rcases List.mem_cons.mp member with same | inside
    · exact plain.1 same
    · rw [blank last inside] at visible
      cases visible
  · cases ends suffix (List.cons_ne_nil _ _)
    exact plain.2 rfl
  · cases ends suffix (List.cons_ne_nil _ _)
    cases visible

def Joins (text tail : List Char) : Prop :=
  tail = [] ∨ Complete text ∧ ∃ behind, tail = '\n' :: behind

namespace Joins

variable {text behind tail : List Char}

theorem suffix (joins : Joins text tail) (suffix : behind <:+ text) : Joins behind tail := by
  rcases joins with nothing | ⟨complete, feed⟩
  · exact .inl nothing
  · exact .inr ⟨complete.suffix suffix, feed⟩

theorem stops (joins : Joins text tail) {test : Char → Bool} (feed : test '\n' = false) :
    Stops test tail := by
  rcases joins with rfl | ⟨-, behind, rfl⟩
  · exact stops_nil
  · exact stops_cons.mpr feed

end Joins

/-! ## Moved places -/

def Cursor.moved (lines : Nat) (tail : List Char) (cursor : Cursor) : Cursor :=
  ⟨cursor.line + lines, cursor.rest ++ tail⟩

section

variable {lines : Nat} {tail : List Char} {test : Char → Bool}

theorem takeWhile_append_of_stops {rest : List Char}
    (stops : Stops test tail ∨ ∃ character ∈ rest, test character = false) :
    (rest ++ tail).takeWhile test = rest.takeWhile test := by
  induction rest with
  | nil =>
    rcases stops with stops | ⟨_, ⟨⟩, -⟩
    exact @takeWhile_run test [] tail nofun stops
  | cons first rest induction =>
    cases passes : test first with
    | false => simp [passes]
    | true =>
      have onward : Stops test tail ∨ ∃ character ∈ rest, test character = false := by
        refine stops.imp_right ?_
        rintro ⟨character, member, fails⟩
        rcases List.mem_cons.mp member with rfl | member
        · rw [passes] at fails
          cases fails
        · exact ⟨character, member, fails⟩
      simp [passes, induction onward]

namespace Cursor

variable {cursor : Cursor}

theorem past_moved {taken : List Char} (front : taken <+: cursor.rest) :
    (cursor.moved lines tail).past taken = (cursor.past taken).moved lines tail := by
  simp only [past, moved, List.drop_append_of_le_length front.length_le, Nat.add_right_comm]

theorem skip_moved (stops : Stops test tail ∨ ∃ character ∈ cursor.rest, test character = false) :
    (cursor.moved lines tail).skip test = (cursor.skip test).moved lines tail := by
  have same : (cursor.moved lines tail).ahead test = cursor.ahead test :=
    takeWhile_append_of_stops stops
  have front : cursor.ahead test <+: cursor.rest := List.takeWhile_prefix test
  rw [skip, same, past_moved front, skip]

theorem next_moved (ahead : cursor.rest ≠ []) :
    (cursor.moved lines tail).next = cursor.next.moved lines tail := by
  obtain ⟨first, others, same⟩ := List.exists_cons_of_ne_nil ahead
  have taken : (cursor.moved lines tail).rest.take 1 = cursor.rest.take 1 := by
    simp [moved, same]
  rw [next, taken, past_moved (List.take_prefix 1 cursor.rest), next]

theorem isAt_moved (joins : Joins cursor.rest tail) {sign : Char} (visible : sign ≠ '\n') :
    (cursor.moved lines tail).isAt sign = cursor.isAt sign := by
  rcases cursor with ⟨line, _ | ⟨first, others⟩⟩
  · rcases joins with rfl | ⟨-, behind, rfl⟩
    · rfl
    · simp [isAt, peek, moved, Ne.symm visible]
  · simp [moved]

end Cursor

/-! ## Texts -/

theorem readText_other {quoted : Bool} {line : Nat} {read rest : List Char} {character : Char}
    (backslash : character ≠ '\\') (quote : character ≠ '"') :
    readText quoted line read (character :: rest) =
      if character = '\r' ∨ character = '\n' then (read.reverse, ⟨line, character :: rest⟩)
      else if quoted then readText quoted line (character :: read) rest
      else if isGap character then readText quoted line read rest
      else if textStops.contains character then (read.reverse, ⟨line, character :: rest⟩)
      else readText quoted line (character :: read) rest := by
  rw [readText]
  all_goals simp [backslash, quote]

theorem ne_backslash {character : Char} {rest : List Char} (last : character = '\\' → rest ≠ [])
    (escape : ∀ escaped behind, character = '\\' → rest ≠ escaped :: behind) :
    character ≠ '\\' := by
  intro same
  cases rest with
  | nil => exact last same rfl
  | cons escaped behind => exact escape escaped behind same rfl

theorem readText_moved (quoted : Bool) (line : Nat) (read rest : List Char)
    (joins : Joins rest tail) :
    readText quoted (line + lines) read (rest ++ tail) =
      ((readText quoted line read rest).1,
        (readText quoted line read rest).2.moved lines tail) := by
  fun_induction readText quoted line read rest with
  | case1 quoted line read =>
    rcases joins with rfl | ⟨-, behind, rfl⟩
    · simp [readText, Cursor.moved]
    · simp [readText, Cursor.moved]
  | case2 quoted line read =>
    rcases joins with rfl | ⟨complete, -⟩
    · simp [readText, Cursor.moved]
    · exact absurd (List.suffix_refl _) complete.backslash
  | case3 quoted line read rest induction =>
    exact induction (joins.suffix ⟨['\\', 'n'], rfl⟩)
  | case4 quoted line read rest induction =>
    exact induction (joins.suffix ⟨['\\', 't'], rfl⟩)
  | case5 quoted line read rest induction =>
    have onward := induction (joins.suffix ⟨['\\', '\r', '\n'], rfl⟩)
    rwa [Nat.add_right_comm] at onward
  | case6 quoted line read rest unfed induction =>
    have onward := induction (joins.suffix ⟨['\\', '\r'], rfl⟩)
    have unfedMoved : ∀ behind, rest ++ tail = '\n' :: behind → False := by
      intro behind same
      cases rest with
      | nil =>
        rcases joins with rfl | ⟨complete, -⟩
        · cases same
        · exact complete.carriage (List.suffix_refl _)
      | cons first others =>
        cases same
        exact unfed others rfl
    rw [List.cons_append, List.cons_append, readText]
    · exact onward
    · exact unfedMoved
  | case7 quoted line read rest induction =>
    have onward := induction (joins.suffix ⟨['\\', '\n'], rfl⟩)
    rwa [Nat.add_right_comm] at onward
  | case8 quoted line read escaped rest newline tab _ carriage feed induction =>
    rw [List.cons_append, List.cons_append, readText]
    · exact induction (joins.suffix ⟨['\\', escaped], rfl⟩)
    · exact newline
    · exact tab
    · exact fun _ same _ => carriage same
    · exact carriage
    · exact feed
  | case9 quoted line read rest induction =>
    exact induction (joins.suffix ⟨['"'], rfl⟩)
  | case10 quoted line read character rest last _ _ _ _ _ escape quote ends =>
    rw [List.cons_append, readText_other (ne_backslash last escape) quote, if_pos ends]
    rfl
  | case11 line read character rest last _ _ _ _ _ escape quote inside induction =>
    rw [List.cons_append, readText_other (ne_backslash last escape) quote, if_neg inside,
      if_pos rfl]
    exact induction (joins.suffix ⟨[character], rfl⟩)
  | case12 quoted line read character rest last _ _ _ _ _ escape quote inside bare gap induction =>
    rw [List.cons_append, readText_other (ne_backslash last escape) quote, if_neg inside,
      if_neg bare, if_pos gap]
    exact induction (joins.suffix ⟨[character], rfl⟩)
  | case13 quoted line read character rest last _ _ _ _ _ escape quote inside bare gap stop =>
    rw [List.cons_append, readText_other (ne_backslash last escape) quote, if_neg inside,
      if_neg bare, if_neg gap, if_pos stop]
    rfl
  | case14 quoted line read character rest last _ _ _ _ _ escape quote inside bare gap stop
    induction =>
    rw [List.cons_append, readText_other (ne_backslash last escape) quote, if_neg inside,
      if_neg bare, if_neg gap, if_neg stop]
    exact induction (joins.suffix ⟨[character], rfl⟩)

/-! ## Scanners -/

namespace Scanner

def shifted (lines : Nat) (tail : List Char) :
    EStateM.Result Problem Cursor α → EStateM.Result Problem Cursor α
  | .ok result cursor => .ok result (cursor.moved lines tail)
  | .error problem cursor => .error problem (cursor.moved lines tail)

def Mirrors (lines : Nat) (tail : List Char) (scanner there : Scanner α) (cursor : Cursor) : Prop :=
  Joins cursor.rest tail →
    there (cursor.moved lines tail) = shifted lines tail (scanner cursor)

variable {scanner there : Scanner α} {next nextThere : α → Scanner β} {cursor : Cursor}

theorem mirrors_pure (result : α) :
    Mirrors lines tail (pure result) (pure result) cursor := fun _ => rfl

theorem mirrors_throw (problem : Problem) :
    Mirrors lines tail (throw problem : Scanner α) (throw problem) cursor := fun _ => rfl

theorem mirrors_get {next nextThere : Cursor → Scanner β}
    (onward : Joins cursor.rest tail →
      Mirrors lines tail (next cursor) (nextThere (cursor.moved lines tail)) cursor) :
    Mirrors lines tail (get >>= next) (get >>= nextThere) cursor := fun joins =>
  onward joins joins

theorem Mirrors.bind (mirrors : Mirrors lines tail scanner there cursor) (forward : Forward scanner)
    (onward : ∀ result later, scanner cursor = .ok result later →
      Mirrors lines tail (next result) (nextThere result) later) :
    Mirrors lines tail (scanner >>= next) (there >>= nextThere) cursor := by
  intro joins
  have first := mirrors joins
  cases ran : scanner cursor with
  | ok result later =>
    rw [ran] at first
    simp only [Bind.bind, EStateM.bind, first, ran, shifted]
    exact onward result later ran (joins.suffix (forward.reaches ran).suffix)
  | error problem later =>
    rw [ran] at first
    simp only [Bind.bind, EStateM.bind, first, ran, shifted]

theorem mirrors_advance (ahead : cursor.rest ≠ []) :
    Mirrors lines tail advance advance cursor := fun _ =>
  congrArg (EStateM.Result.ok ()) (Cursor.next_moved ahead)

theorem mirrors_skip (feed : test '\n' = false) :
    Mirrors lines tail (skip test) (skip test) cursor := fun joins =>
  congrArg (EStateM.Result.ok ()) (Cursor.skip_moved (.inl (joins.stops feed)))

theorem mirrors_takeUntil {stops : List Char} (feed : stops.contains '\n' = true) :
    Mirrors lines tail (takeUntil stops) (takeUntil stops) cursor := by
  intro joins
  have fails : (!stops.contains '\n') = false := congrArg not feed
  have same : (cursor.moved lines tail).ahead (fun character => !stops.contains character) =
      cursor.ahead fun character => !stops.contains character :=
    takeWhile_append_of_stops (.inl (joins.stops fails))
  have front : cursor.ahead (fun character => !stops.contains character) <+: cursor.rest :=
    List.takeWhile_prefix _
  change EStateM.Result.ok _ ((cursor.moved lines tail).past _) = _
  rw [same, Cursor.past_moved front]
  rfl

theorem mirrors_expect {allowed : List Char} (feed : allowed.contains '\n' = true) :
    Mirrors lines tail (expect allowed) (expect allowed) cursor := by
  refine mirrors_get fun joins => ?_
  rcases cursor with ⟨line, _ | ⟨first, others⟩⟩
  · rcases joins with rfl | ⟨-, behind, rfl⟩
    · exact mirrors_pure ()
    · simp only [Cursor.peek, Cursor.moved, List.head?_nil, List.nil_append, List.head?_cons, feed,
        ↓reduceIte]
      exact mirrors_pure ()
  · simp only [Cursor.peek, Cursor.moved, List.head?_cons, List.cons_append]
    split
    · exact mirrors_pure ()
    · exact mirrors_throw _

theorem mirrors_text : Mirrors lines tail text text cursor := by
  intro joins
  have same := @readText_moved lines tail false cursor.line [] cursor.rest joins
  change EStateM.Result.ok (Value.text (String.ofList (readText false (cursor.line + lines) []
    (cursor.rest ++ tail)).1)) (readText false (cursor.line + lines) [] (cursor.rest ++ tail)).2 = _
  rw [same]
  rfl

theorem mirrors_literal : Mirrors lines tail literal literal cursor :=
  (mirrors_takeUntil rfl).bind (forward_takeUntil _) fun _ _ _ => mirrors_pure _

theorem mirrors_value : Mirrors lines tail value value cursor := by
  refine mirrors_get fun joins => ?_
  rcases cursor with ⟨line, _ | ⟨first, others⟩⟩
  · rcases joins with rfl | ⟨-, behind, rfl⟩
    · exact mirrors_literal
    · have bare : beginsText '\n' = false := by decide
      simp only [Cursor.peek, Cursor.moved, List.head?_nil, List.nil_append, List.head?_cons, bare,
        Bool.false_eq_true, ↓reduceIte]
      exact mirrors_literal
  · simp only [Cursor.peek, Cursor.moved, List.head?_cons, List.cons_append]
    split
    · exact mirrors_text
    · exact mirrors_literal

theorem mirrors_pair : Mirrors lines tail pair pair cursor := by
  refine (mirrors_skip rfl).bind (forward_skip _) fun _ _ _ => ?_
  refine (mirrors_takeUntil rfl).bind (forward_takeUntil _) fun key _ _ => ?_
  refine (mirrors_skip rfl).bind (forward_skip _) fun _ later _ => mirrors_get fun joins => ?_
  rw [Cursor.isAt_moved joins (by decide)]
  split
  · rename_i stands
    refine (mirrors_advance (Cursor.ne_nil_of_isAt stands)).bind forward_advance fun _ _ _ => ?_
    refine (mirrors_skip rfl).bind (forward_skip _) fun _ _ _ => ?_
    exact mirrors_value.bind forward_value fun _ _ _ => mirrors_pure _
  · split
    · exact mirrors_pure _
    · exact mirrors_pure _

theorem visible_behind_comma (joins : Joins cursor.rest tail) (stands : cursor.isAt ',' = true) :
    tail = [] ∨ ∃ character ∈ cursor.next.rest, isGapOrLineEnd character = false := by
  refine joins.imp_right fun ⟨complete, _⟩ => ?_
  rcases cursor with ⟨line, _ | ⟨first, others⟩⟩
  · cases stands
  · have same : first = ',' := by simpa using stands
    subst same
    by_contra nothing
    refine complete.comma others (fun character member => ?_) (List.suffix_refl _)
    by_contra visible
    exact nothing ⟨character, member, by simpa using visible⟩

theorem mirrors_behindComma (joins : Joins cursor.rest tail) (stands : cursor.isAt ',' = true) :
    Mirrors lines tail (skip isGapOrLineEnd) (skip isGapOrLineEnd) cursor.next := by
  intro _
  refine congrArg (EStateM.Result.ok ()) (Cursor.skip_moved ?_)
  rcases visible_behind_comma joins stands with rfl | visible
  · exact .inl stops_nil
  · exact .inr visible

theorem isAtEnd_behindComma (joins : Joins cursor.rest tail) (stands : cursor.isAt ',' = true) :
    ((cursor.next.skip isGapOrLineEnd).moved lines tail).isAtEnd =
      (cursor.next.skip isGapOrLineEnd).isAtEnd := by
  rcases visible_behind_comma joins stands with rfl | ⟨character, member, visible⟩
  · simp [Cursor.moved, Cursor.isAtEnd]
  · have ahead : (cursor.next.skip isGapOrLineEnd).rest ≠ [] := by
      rw [Cursor.rest_skip, ne_eq, List.dropWhile_eq_nil_iff]
      intro blank
      rw [blank character member] at visible
      cases visible
    obtain ⟨first, others, same⟩ := List.exists_cons_of_ne_nil ahead
    change ((cursor.next.skip isGapOrLineEnd).rest ++ tail).isEmpty = List.isEmpty _
    rw [same]
    rfl

theorem mirrors_pairs_end {rounds more : List Char} {line : Nat} :
    Mirrors lines tail (pairs rounds) (pairs more) ⟨line, []⟩ := by
  have nothing (rounds : List Char) (line : Nat) :
      pairs rounds ⟨line, []⟩ = .ok ([], false) ⟨line, []⟩ := by
    cases rounds <;> rfl
  intro joins
  rw [nothing]
  rcases joins with rfl | ⟨-, behind, rfl⟩
  · exact nothing more _
  · exact run_pairs_nothing more behind _

theorem mirrors_pairs {rounds more : List Char} (enough : cursor.rest.length ≤ rounds.length)
    (enoughMore : (cursor.rest ++ tail).length ≤ more.length) :
    Mirrors lines tail (pairs rounds) (pairs more) cursor := by
  induction rounds generalizing more cursor with
  | nil =>
    rcases cursor with ⟨line, _ | ⟨first, others⟩⟩
    · exact mirrors_pairs_end
    · cases enough
  | cons round rounds induction =>
    rcases cursor with ⟨line, _ | ⟨first, others⟩⟩
    · exact mirrors_pairs_end
    rcases more with _ | ⟨round, more⟩
    · cases enoughMore
    refine mirrors_get fun _ => ?_
    rw [Cursor.isAtEnd_cons, Cursor.moved, List.cons_append, Cursor.isAtEnd_cons]
    refine mirrors_pair.bind forward_pair fun found behind first => ?_
    refine (mirrors_skip rfl).bind (forward_skip _) fun _ sign gap => mirrors_get fun joins => ?_
    rw [Cursor.isAt_moved joins (by decide)]
    split
    · rename_i stands
      have ahead := Cursor.ne_nil_of_isAt stands
      refine (mirrors_advance ahead).bind forward_advance fun _ _ advanced => ?_
      cases advanced
      refine (mirrors_behindComma joins stands).bind (forward_skip _) fun _ place skipped => ?_
      obtain rfl : place = sign.next.skip isGapOrLineEnd := by
        cases skipped
        rfl
      refine mirrors_get fun _ => ?_
      rw [isAtEnd_behindComma joins stands]
      split
      · exact mirrors_pure _
      · -- the comma is one character less for the rounds that are left
        have fewer := (forward_pair.reaches first).length_le
        have fewerBehind := ((forward_skip isGap).reaches gap).length_le
        have fewerNext := Cursor.length_next_lt ahead
        have fewerLater := (sign.next.reaches_skip isGapOrLineEnd).length_le
        simp only [List.length_cons, List.length_append] at enough enoughMore fewer fewerBehind
        refine Mirrors.bind (induction ?_ ?_) (forward_pairs _) fun _ _ _ => mirrors_pure _
        · omega
        · rw [List.length_append]
          omega
    · exact mirrors_pure _

theorem mirrors_attributes : Mirrors lines tail attributes attributes cursor := by
  refine mirrors_get fun joins => ?_
  rw [Cursor.isAt_moved joins (by decide)]
  split
  · rename_i stands
    have ahead := Cursor.ne_nil_of_isAt stands
    refine (mirrors_advance ahead).bind forward_advance fun _ _ advanced => ?_
    cases advanced
    refine (mirrors_behindComma joins stands).bind (forward_skip _) fun _ _ _ => ?_
    exact mirrors_get fun _ => mirrors_pairs (Nat.le_refl _) (Nat.le_refl _)
  · refine (mirrors_skip rfl).bind (forward_skip _) fun _ _ _ => ?_
    exact mirrors_get fun _ => mirrors_pairs (Nat.le_refl _) (Nat.le_refl _)

def Mirrored (lines : Nat) (tail : List Char) (scanner : Scanner α) : Prop :=
  ∀ cursor, Mirrors lines tail scanner scanner cursor

theorem mirrored_headed (begins : Char → Bool) (problem : String → Problem) (taken : List Char) :
    Mirrored lines tail (headed begins problem taken) := by
  have behind : Mirrored lines tail (do
      skip isGap
      expect headerEnds
      return String.ofList taken) := fun _ =>
    (mirrors_skip rfl).bind (forward_skip _) fun _ _ _ =>
      (mirrors_expect rfl).bind (forward_expect _) fun _ _ _ => mirrors_pure _
  intro cursor
  unfold headed
  split
  · split
    · exact (mirrors_throw _).bind (forward_throw _) fun _ _ _ => behind _
    · exact behind _
  · exact behind _

theorem mirrors_name : Mirrors lines tail name name cursor :=
  (mirrors_skip rfl).bind (forward_skip _) fun _ _ _ =>
    (mirrors_takeUntil rfl).bind (forward_takeUntil _) fun taken _ _ =>
      mirrored_headed beginsName .invalidName taken _

theorem mirrors_typeName : Mirrors lines tail typeName typeName cursor := by
  have headed : Mirrored lines tail (do
      let taken ← takeUntil typeStops
      headed Text.isAlphabetic .invalidType taken) := fun _ =>
    (mirrors_takeUntil rfl).bind (forward_takeUntil _) fun taken _ _ =>
      mirrored_headed Text.isAlphabetic .invalidType taken _
  refine mirrors_get fun joins => ?_
  rw [Cursor.isAt_moved joins (by decide)]
  split
  · rename_i stands
    exact (mirrors_advance (Cursor.ne_nil_of_isAt stands)).bind forward_advance fun _ _ _ =>
      (mirrors_skip rfl).bind (forward_skip _) fun _ _ _ => headed _
  · exact headed _

/-- A record is read alike wherever it stands and whatever complete text goes on behind it. -/
theorem mirrors_record (options : Options) :
    Mirrors lines tail (record options) (record options) cursor := by
  refine mirrors_name.bind forward_name fun name _ _ => ?_
  split
  · exact mirrors_typeName.bind forward_typeName fun typeName _ _ =>
      mirrors_attributes.bind forward_attributes fun _ _ _ => mirrors_pure _
  · exact mirrors_attributes.bind forward_attributes fun _ _ _ => mirrors_pure _

end Scanner

end

end RecordGraph.Document
