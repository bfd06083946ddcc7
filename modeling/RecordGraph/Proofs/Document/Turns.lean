import RecordGraph.Proofs.Document.Parts
import RecordGraph.Proofs.Document.Warnings

/-!
# Turns of a load over bytes

Each turn of a load reads an item or finds the end of the document. It takes a byte at least where
it reads an item, so there are turns enough for every document. The items begin one behind the
other, and so the warnings about them stand in the order of their lines.
-/

namespace RecordGraph.Document.Bytes

open RecordGraph.Path (byteSize)
open RecordGraph.Path.Bytes (IsAscii Uniform byteAt encode)

variable {text : String} {offset : Nat} {cursor : Cursor}

/-! ## Malformed records -/

theorem recover_round (fuel : Nat) (stands : Stands text offset cursor) :
    ∃ next, Stands text next ((cursor.skip fun character => !recordEnds.contains character).skip
        isGapOrLineEnd) ∧
      recover text (fuel + 1) offset =
        (do if (← peek text) = some ',' then
              advance text
              recover text fuel : Scanner Unit) next := by
  have ended := stands.skip fun character => !recordEnds.contains character
  refine ⟨_, ended.skip isGapOrLineEnd, ?_⟩
  rw [recover, bind_of_ok (takeUntil_eq (by simp [recordEnds, IsAscii]) stands)]
  exact bind_of_ok (passWhile_eq uniform_isGapOrLineEnd ended)

theorem recover_eq (rounds : List Char) {fuel : Nat} (stands : Stands text offset cursor)
    (enough : cursor.rest.length ≤ rounds.length) (enoughFuel : cursor.rest.length < fuel) :
    ∃ finish, recover text fuel offset = .ok () finish ∧
      Stands text finish (cursor.recover rounds) := by
  induction rounds generalizing fuel offset cursor with
    obtain ⟨fuel, rfl⟩ := Nat.exists_eq_succ_of_ne_zero (Nat.ne_zero_of_lt enoughFuel)
  | nil =>
    rcases recover_round fuel stands with ⟨next, there, same⟩
    have nothing : cursor.rest = [] := List.length_eq_zero_iff.mp (Nat.le_zero.mp enough)
    rcases cursor with ⟨line, rest⟩
    cases nothing
    have ends : byteAt text next = none := Path.Bytes.byteAt_nil there.inside
    refine ⟨next, ?_, there⟩
    rw [same, bind_of_ok (peek_eq text _), ends]
    rfl
  | cons round rounds induction =>
    rcases recover_round fuel stands with ⟨next, there, same⟩
    have skipped := (cursor.reaches_skip fun character => !recordEnds.contains character).trans
      (Cursor.reaches_skip _ isGapOrLineEnd)
    rw [same, bind_of_ok (peek_eq text _)]
    unfold Cursor.recover
    dsimp only
    generalize (cursor.skip _).skip isGapOrLineEnd = behind at there skipped
    cases comma : behind.isAt ',' with
    | true =>
      rw [if_pos ((there.byteAt_eq_iff (by decide)).mpr comma), if_pos rfl]
      rcases advance_eq (by decide) there comma with ⟨passed, onward⟩
      -- The comma is taken, so what is left is shorter and both bounds hold for it.
      have taken := Cursor.length_next_lt (Cursor.ne_nil_of_isAt comma)
      have less := Nat.lt_of_lt_of_le taken skipped.length_le
      rw [bind_of_ok passed]
      exact induction onward (Nat.le_of_lt_succ (Nat.lt_of_lt_of_le less enough))
        (Nat.lt_of_lt_of_le less (Nat.le_of_lt_succ enoughFuel))
    | false =>
      rw [if_neg (there.byteAt_ne (by decide) comma), if_neg Bool.false_ne_true]
      exact ⟨next, rfl, there⟩

theorem ofRecord_eq (options : Options) (stands : Stands text offset cursor) :
    ∃ finish, ofRecord text options offset = .ok (Item.ofRecord options cursor).1 finish ∧
      Stands text finish (Item.ofRecord options cursor).2 := by
  have agrees := follows_record options offset cursor stands
  have run : (Document.Scanner.record options).run cursor =
    Document.Scanner.record options cursor := rfl
  unfold ofRecord Item.ofRecord
  rw [run]
  generalize record text options offset = outcome at agrees
  generalize Document.Scanner.record options cursor = expected at agrees
  cases agrees with
  | ok there => exact ⟨_, rfl, there⟩
  | error there =>
    rcases recover_eq _ there (Nat.le_refl _) there.length_lt with ⟨finish, ran, ends⟩
    exact ⟨finish, bind_of_ok ran, ends⟩

/-! ## Turns -/

section

variable {options : Options} {item : Item} {line : Nat} {later : Cursor}

theorem begun_eq (options : Options) {first byte : Char} {others : List Char}
    (member : byte ∈ encode first) (stands : Stands text offset ⟨line, first :: others⟩) :
    ∃ finish, begun text options byte offset =
        .ok (Item.begun options ⟨line, first :: others⟩ first).1 finish ∧
      Stands text finish (Item.begun options ⟨line, first :: others⟩ first).2 := by
  have ascii : ∀ sign ∈ itemSigns, IsAscii sign := by simp [itemSigns, IsAscii]
  have uniform : Uniform itemSigns.contains := uniform_contains ascii
  by_cases ordinary : first ∈ itemSigns
  · have alone := ascii first ordinary
    rw [Path.Bytes.encode_of_ascii alone, List.mem_singleton] at member
    subst member
    have advanced := advance_eq alone stands (by simp)
    simp only [itemSigns, List.mem_cons, List.not_mem_nil, or_false] at ordinary
    rcases ordinary with rfl | rfl | rfl | rfl | rfl | rfl
    · exact ⟨_, bind_of_ok (passWhile_eq (Path.Bytes.uniform_ne (by decide)) stands),
        stands.skip _⟩
    all_goals exact ⟨_, bind_of_ok advanced.1, advanced.2⟩
  · -- No byte of a wide character is a sign, so the byte leads to a record as the character does.
    have plain : byte ∉ itemSigns := fun sign =>
      ordinary (List.contains_iff_mem.mp
        ((uniform.eq_of_mem_encode member).symm.trans (List.contains_iff_mem.mpr sign)))
    have same : begun text options byte = ofRecord text options := by
      simp only [itemSigns, List.mem_cons, List.not_mem_nil, or_false, not_or] at plain
      unfold begun
      split <;> simp_all
    rw [same, Item.begun_ordinary options _ ordinary]
    exact ofRecord_eq options stands

theorem turn_of_none (stands : Stands text offset cursor)
    (none : Item.next? options cursor = none) :
    ∃ finish, turn text options offset = .ok .none finish ∧
      Stands text finish (cursor.skip isGapOrLineEnd) ∧ finish = text.utf8ByteSize := by
  have there := stands.skip isGapOrLineEnd
  have nothing : (cursor.skip isGapOrLineEnd).rest = [] := by
    rw [Cursor.rest_skip, List.dropWhile_eq_nil_iff]
    exact Item.next?_eq_none_iff.mp none
  have ends : byteAt text (offset + byteSize (cursor.ahead isGapOrLineEnd)) = .none := by
    have inside := there.inside
    rw [nothing] at inside
    exact Path.Bytes.byteAt_nil inside
  refine ⟨_, ?_, there, ?_⟩
  · refine (bind_of_ok (passWhile_eq uniform_isGapOrLineEnd stands)).trans ?_
    refine (bind_of_ok (get_eq _)).trans ((bind_of_ok (peek_eq text _)).trans ?_)
    rw [ends]
    rfl
  · rw [there.size_eq, nothing]
    rfl

/-- A turn reads the item that begins behind the blanks, and takes a byte of it at least. -/
theorem turn_of_some (stands : Stands text offset cursor)
    (next : Item.next? options cursor = some (item, line, later)) :
    ∃ start finish front, turn text options offset = .ok (some (start, item)) finish ∧
      Stands text start ⟨line, front⟩ ∧ Stands text finish later ∧ offset ≤ start ∧
      start < finish := by
  rcases Item.next?_eq_some_iff.mp next with ⟨first, others, front, visible, begins⟩
  have there := stands.skip isGapOrLineEnd
  rw [front] at there
  rcases Path.Bytes.byteAt_cons there.inside with ⟨byte, member, found⟩
  rcases begun_eq options member there with ⟨finish, ran, ends⟩
  rcases Item.begun_takes visible begins with ⟨reaches, takes⟩
  rw [begins] at ran ends
  refine ⟨_, finish, _, ?_, there, ends, Nat.le_add_right .., there.lt_of_takes reaches takes ends⟩
  refine (bind_of_ok (passWhile_eq uniform_isGapOrLineEnd stands)).trans ?_
  refine (bind_of_ok (get_eq _)).trans ((bind_of_ok (peek_eq text _)).trans ?_)
  rw [found]
  exact bind_of_ok ran

theorem next?_of_turn_none {finish : Nat} (stands : Stands text offset cursor)
    (ran : turn text options offset = .ok none finish) :
    Item.next? options cursor = none ∧ Stands text finish (cursor.skip isGapOrLineEnd) ∧
      finish = text.utf8ByteSize := by
  cases next : Item.next? options cursor with
  | none =>
    rcases turn_of_none stands next with ⟨_, same, ends⟩
    rw [ran] at same
    cases same
    exact ⟨rfl, ends⟩
  | some found =>
    rcases turn_of_some stands next with ⟨_, _, _, same, -⟩
    rw [ran] at same
    cases same

theorem next?_of_turn_some {start finish : Nat} (stands : Stands text offset cursor)
    (ran : turn text options offset = .ok (some (start, item)) finish) :
    ∃ line later front, Item.next? options cursor = some (item, line, later) ∧
      Stands text start ⟨line, front⟩ ∧ Stands text finish later ∧ offset ≤ start ∧
      start < finish := by
  cases next : Item.next? options cursor with
  | none =>
    rcases turn_of_none stands next with ⟨_, same, -⟩
    rw [ran] at same
    cases same
  | some found =>
    rcases found with ⟨_, line, later⟩
    rcases turn_of_some stands next with ⟨_, _, front, same, there⟩
    rw [ran] at same
    cases same
    exact ⟨line, later, front, rfl, there⟩

end

/-- From every boundary a turn either finds the end of the document, or it reads an item, which lies
behind that boundary and takes a byte at least. -/
theorem turn_goes_on (options : Options) (valid : String.Pos.Raw.IsValid text ⟨offset⟩) :
    turn text options offset = .ok none text.utf8ByteSize ∨
      ∃ start item finish, turn text options offset = .ok (some (start, item)) finish ∧
        offset ≤ start ∧ start < finish ∧ String.Pos.Raw.IsValid text ⟨start⟩ ∧
        String.Pos.Raw.IsValid text ⟨finish⟩ ∧ ItemParts text start finish item := by
  rcases Stands.exists_of_isValid valid with ⟨cursor, stands⟩
  cases next : Item.next? options cursor with
  | none =>
    rcases turn_of_none stands next with ⟨finish, ran, -, rfl⟩
    exact .inl ran
  | some found =>
    rcases found with ⟨item, line, later⟩
    rcases turn_of_some stands next with ⟨start, finish, front, ran, there, ends, order, takes⟩
    have parts := @ends_turn (fun _ _ => True) text options offset
    rw [ran] at parts
    exact .inr ⟨start, item, finish, ran, order, takes, there.isValid, ends.isValid,
      parts start item rfl⟩

/-! ## Loading -/

theorem addAll_eq (registry : Registry) (options : Options) {rounds fuel : Nat} (load : Load)
    (stands : Stands text offset cursor) (enough : cursor.rest.length < rounds)
    (enoughFuel : cursor.rest.length < fuel) :
    ∃ finish, addAll text registry options fuel load offset =
      .ok (load.addAll registry options rounds cursor) finish := by
  induction rounds generalizing fuel load offset cursor with
  | zero => cases enough
  | succ rounds induction =>
    obtain ⟨fuel, rfl⟩ := Nat.exists_eq_succ_of_ne_zero (Nat.ne_zero_of_lt enoughFuel)
    rw [addAll]
    unfold Load.addAll
    cases next : Item.next? options cursor with
    | none =>
      rcases turn_of_none stands next with ⟨finish, ran, ends, -⟩
      refine ⟨finish, ?_⟩
      rw [bind_of_ok ran]
      dsimp only
      rw [bind_of_ok (get_eq finish), ends.line_eq]
      rfl
    | some found =>
      rcases found with ⟨item, line, later⟩
      rcases turn_of_some stands next with ⟨start, finish, front, ran, there, ends, -⟩
      have takes := (Item.next?_takes next).2
      have same : line = lineOf text start := there.line_eq
      rw [bind_of_ok ran]
      dsimp only
      rw [← same]
      exact induction _ ends (by omega) (by omega)

theorem load_eq (text : String) (arena : Arena) (registry : Registry) (parent : NodeId)
    (options : Options) :
    ∃ finish, load text arena registry parent options 0 =
      .ok (Document.load text arena registry parent options) finish := by
  unfold load Document.load
  split
  · have start := stands_start text
    rcases addAll_eq registry options _ start (Nat.lt_succ_self _) start.length_lt with
      ⟨finish, ran⟩
    exact ⟨finish, bind_of_ok ran⟩
  · exact ⟨0, rfl⟩

/-! ## Warnings -/

/-- The turns of a load from an offset to the end of the document, each with the place at which its
item begins. -/
inductive Turns (text : String) (options : Options) : Nat → List (Nat × Item) → Prop where
  | nil {offset finish : Nat} : turn text options offset = .ok none finish →
      Turns text options offset []
  | cons {offset start finish : Nat} {item : Item} {items : List (Nat × Item)} :
      turn text options offset = .ok (some (start, item)) finish →
      Turns text options finish items → Turns text options offset ((start, item) :: items)

def warningAt (text : String) (place : Nat × Problem) : Warning :=
  .on (lineOf text place.1) place.2

/-- A problem is met where an item begins that raises it, or an open block at the end. -/
def Met (text : String) (registry : Registry) (items : List (Nat × Item)) (place : Nat × Problem) :
    Prop :=
  (∃ item, (place.1, item) ∈ items ∧ item.Raises registry place.2) ∨
    place = (text.utf8ByteSize, .unexpectedEnd)

variable {options : Options} {registry : Registry} {items : List (Nat × Item)}

theorem exists_turns (options : Options) (valid : String.Pos.Raw.IsValid text ⟨offset⟩) :
    ∃ items, Turns text options offset items := by
  -- On the number of bytes that are left: a turn leads behind the item that it read.
  induction left : text.utf8ByteSize - offset using Nat.strong_induction_on
    generalizing offset with
  | h left induction =>
    rcases turn_goes_on options valid with
      ran | ⟨start, item, finish, ran, order, takes, -, ends, -⟩
    · exact ⟨[], .nil ran⟩
    · have within : finish ≤ text.utf8ByteSize := ends.le_rawEndPos
      rcases induction _ (by omega) ends rfl with ⟨items, turns⟩
      exact ⟨(start, item) :: items, .cons ran turns⟩

theorem Turns.starts (turns : Turns text options offset items)
    (valid : String.Pos.Raw.IsValid text ⟨offset⟩) :
    (∀ place ∈ items, offset ≤ place.1 ∧ place.1 < text.utf8ByteSize) ∧
      items.Pairwise (·.1 < ·.1) := by
  induction turns with
  | nil => exact ⟨List.forall_mem_nil _, .nil⟩
  | @cons offset start finish item items ran turns induction =>
    rcases Stands.exists_of_isValid valid with ⟨cursor, stands⟩
    rcases next?_of_turn_some stands ran with ⟨_, _, _, -, -, ends, order, takes⟩
    rcases induction ends.isValid with ⟨within, ordered⟩
    refine ⟨fun place member => ?_, List.pairwise_cons.mpr ⟨fun place member => ?_, ordered⟩⟩
    · rcases List.mem_cons.mp member with rfl | member
      · exact ⟨order, Nat.lt_of_lt_of_le takes ends.offset_le⟩
      · have bounds := within place member
        exact ⟨by omega, bounds.2⟩
    · exact Nat.lt_of_lt_of_le takes (within place member).1

theorem Met.le {place : Nat × Problem} (met : Met text registry items place)
    (turns : Turns text options offset items) (valid : String.Pos.Raw.IsValid text ⟨offset⟩) :
    offset ≤ place.1 := by
  rcases met with ⟨item, member, -⟩ | rfl
  · exact ((turns.starts valid).1 _ member).1
  · exact valid.le_rawEndPos

theorem Met.place_le {place : Nat × Problem} (met : Met text registry items place)
    (turns : Turns text options offset items) (valid : String.Pos.Raw.IsValid text ⟨offset⟩) :
    place.1 ≤ text.utf8ByteSize := by
  rcases met with ⟨item, member, -⟩ | rfl
  · exact Nat.le_of_lt ((turns.starts valid).1 _ member).2
  · exact le_rfl

theorem Met.cons {place : Nat × Problem} {turn : Nat × Item}
    (met : Met text registry items place) :
    Met text registry (turn :: items) place := by
  rcases met with ⟨item, member, raises⟩ | ended
  · exact .inl ⟨item, List.mem_cons_of_mem _ member, raises⟩
  · exact .inr ended

theorem add_warnings_at (registry : Registry) (load : Load) (item : Item) {line start : Nat}
    {front : List Char} (there : Stands text start ⟨line, front⟩) :
    ∃ problems : List Problem, (load.add registry line item).warnings =
        load.warnings ++ ((problems.map (start, ·)).map (warningAt text)).toArray ∧
      ∀ problem ∈ problems, item.Raises registry problem := by
  rcases Load.add_warnings registry load item with ⟨after, problems, added, raised⟩
  have here : load.add registry line item =
      { after with warnings := load.warnings ++ problems.map (Warning.on line) } :=
    added line load.warnings
  have same : line = lineOf text start := there.line_eq
  refine ⟨problems.toList, ?_, fun problem member =>
    raised problem (Array.mem_toList_iff.mp member)⟩
  rw [here]
  refine Array.toList_inj.mp ?_
  simp [warningAt, same, Function.comp_def]

theorem Turns.warnings {rounds : Nat} (turns : Turns text options offset items)
    (registry : Registry) (load : Load) (stands : Stands text offset cursor)
    (enough : cursor.rest.length < rounds) :
    ∃ places : List (Nat × Problem), (load.addAll registry options rounds cursor).warnings =
        load.warnings ++ (places.map (warningAt text)).toArray ∧
      places.Pairwise (·.1 ≤ ·.1) ∧ ∀ place ∈ places, Met text registry items place := by
  induction turns generalizing rounds load cursor with
    obtain ⟨rounds, rfl⟩ := Nat.exists_eq_succ_of_ne_zero (Nat.ne_zero_of_lt enough)
  | @nil offset finish ended =>
    rcases next?_of_turn_none stands ended with ⟨next, ends, rfl⟩
    unfold Load.addAll
    simp only [next, Load.finish]
    split
    · exact ⟨[], by simp, .nil, List.forall_mem_nil _⟩
    · refine ⟨[(text.utf8ByteSize, .unexpectedEnd)], ?_, List.pairwise_singleton _ _, ?_⟩
      · simp [Load.warn, warningAt, ends.line_eq]
      · simp [Met]
  | @cons offset start finish item items ran turns induction =>
    rcases next?_of_turn_some stands ran with ⟨line, later, front, next, there, ends, -, takes⟩
    have less := (Item.next?_takes next).2
    rcases add_warnings_at registry load item there with ⟨problems, added, raised⟩
    rcases @induction _ rounds (load.add registry line item) ends (by omega) with
      ⟨places, grown, ordered, met⟩
    refine ⟨problems.map (start, ·) ++ places, ?_, List.pairwise_append.mpr ⟨?_, ordered, ?_⟩, ?_⟩
    · unfold Load.addAll
      simp only [next]
      rw [grown, added]
      simp
    · exact List.pairwise_map.mpr (List.pairwise_of_forall fun _ _ => Nat.le_refl start)
    · -- What is met later is met behind this item, or at the end.
      intro first member second behind
      rcases List.mem_map.mp member with ⟨problem, -, rfl⟩
      exact (Nat.le_of_lt takes).trans ((met second behind).le turns ends.isValid)
    · intro place member
      rcases List.mem_append.mp member with member | member
      · rcases List.mem_map.mp member with ⟨problem, present, rfl⟩
        exact .inl ⟨item, List.mem_cons_self, raised problem present⟩
      · exact (met place member).cons

/-- A load makes progress on every document. Read byte by byte it comes to an end, with the result
that it has character by character, and stops nowhere inside a character. From every boundary a turn
either finds the end of the document, or it reads an item behind that boundary and takes a byte of
it at least; names, types, keys and literals of the item are parts of the text. The items of a load
begin one behind the other, and the warnings stand in the order of their lines: each is about an
item that raises it, on the line on which that item begins, or about a block that is open at the
end. Lines are told apart as long as the last one has a number that can be reported. -/
theorem load_goes_forward (text : String) (arena : Arena) (registry : Registry) (parent : NodeId)
    (options : Options) :
    (∃ finish, load text arena registry parent options 0 =
      .ok (Document.load text arena registry parent options) finish) ∧
    (∀ offset, String.Pos.Raw.IsValid text ⟨offset⟩ →
      turn text options offset = .ok none text.utf8ByteSize ∨
      ∃ start item finish, turn text options offset = .ok (some (start, item)) finish ∧
        offset ≤ start ∧ start < finish ∧ String.Pos.Raw.IsValid text ⟨start⟩ ∧
        String.Pos.Raw.IsValid text ⟨finish⟩ ∧ ItemParts text start finish item) ∧
    ∃ items, Turns text options 0 items ∧ items.Pairwise (·.1 < ·.1) ∧
      ∃ places : List (Nat × Problem),
        (Document.load text arena registry parent options).1 = places.map (warningAt text) ∧
        (∀ place ∈ places, Met text registry items place) ∧
        (lineOf text text.utf8ByteSize ≤ Warning.lastLine →
          ∀ place ∈ places, (warningAt text place).line = lineOf text place.1) ∧
        (Document.load text arena registry parent options).1.Pairwise (·.line ≤ ·.line) := by
  have start := stands_start text
  rcases exists_turns options start.isValid with ⟨items, turns⟩
  refine ⟨load_eq text arena registry parent options, fun offset => turn_goes_on options,
    items, turns, (turns.starts start.isValid).2, ?_⟩
  have reported : ∃ places : List (Nat × Problem),
      (Document.load text arena registry parent options).1 = places.map (warningAt text) ∧
      places.Pairwise (·.1 ≤ ·.1) ∧ ∀ place ∈ places, Met text registry items place := by
    unfold Document.load
    split
    · rcases turns.warnings registry ⟨arena.ensureChildren parent, parent, [], none, #[]⟩ start
        (Nat.lt_succ_self _) with ⟨places, warnings, ordered, met⟩
      refine ⟨places, ?_, ordered, met⟩
      dsimp only
      rw [warnings]
      simp
    · exact ⟨[], rfl, .nil, List.forall_mem_nil _⟩
  rcases reported with ⟨places, warnings, ordered, met⟩
  refine ⟨places, warnings, met, fun few place member => ?_, ?_⟩
  · have within := lineOf_mono text ((met place member).place_le turns start.isValid)
    exact Nat.min_eq_left (within.trans few)
  · rw [warnings, List.pairwise_map]
    exact ordered.imp fun order => min_le_min_right _ (lineOf_mono text order)

end RecordGraph.Document.Bytes
