import RecordGraph.Proofs.Document.Offsets

/-!
# Documents read byte by byte

From a place between two characters the scanners over bytes do what the scanners over characters do,
a step at a time. Wherever the cursor comes, it comes between two characters, and no part is cut out
through a character.
-/

namespace RecordGraph.Document.Bytes

open RecordGraph.Path (byteSize)
open RecordGraph.Path.Bytes (IsAscii Uniform byteAt endOf)

variable {text : String} {offset finish : Nat} {cursor later : Cursor}

/-! ## Scanners that follow one another -/

inductive Agrees (text : String) :
    EStateM.Result Stop Nat α → EStateM.Result Problem Cursor α → Prop
  | ok {result : α} {finish : Nat} {later : Cursor} : Stands text finish later →
      Agrees text (.ok result finish) (.ok result later)
  | error {problem : Problem} {finish : Nat} {later : Cursor} : Stands text finish later →
      Agrees text (.error (.failed problem) finish) (.error problem later)

theorem Agrees.bind {scanner : Scanner α} {reader : Document.Scanner α} {next : α → Scanner β}
    {nextReader : α → Document.Scanner β} (first : Agrees text (scanner offset) (reader cursor))
    (rest : ∀ result finish later, reader cursor = .ok result later → Stands text finish later →
      Agrees text (next result finish) (nextReader result later)) :
    Agrees text ((scanner >>= next) offset) ((reader >>= nextReader) cursor) := by
  generalize ran : scanner offset = outcome at first
  generalize ranReader : reader cursor = expected at first
  cases first with
  | ok stands =>
    rw [bind_of_ok ran, bind_of_ok ranReader]
    exact rest _ _ _ ranReader stands
  | error stands =>
    rw [bind_of_error ran, bind_of_error ranReader]
    exact .error stands

def Follows (text : String) (scanner : Scanner α) (reader : Document.Scanner α) : Prop :=
  ∀ offset cursor, Stands text offset cursor → Agrees text (scanner offset) (reader cursor)

namespace Follows

variable {scanner : Scanner α} {reader : Document.Scanner α} {next : α → Scanner β}
  {nextReader : α → Document.Scanner β}

theorem pure (result : α) : Follows text (Pure.pure result) (Pure.pure result) :=
  fun _ _ => .ok

theorem throw (problem : Problem) :
    Follows text (MonadExcept.throw (.failed problem) : Scanner α) (MonadExcept.throw problem) :=
  fun _ _ => .error

theorem bind (first : Follows text scanner reader)
    (rest : ∀ result, Follows text (next result) (nextReader result)) :
    Follows text (scanner >>= next) (reader >>= nextReader) :=
  fun offset cursor stands => (first offset cursor stands).bind fun result finish later _ there =>
    rest result finish later there

end Follows

/-! ## Moves -/

theorem moveTo_eq (stands : Stands text finish later) (offset : Nat) :
    moveTo text finish offset = .ok () finish := by
  unfold moveTo
  rw [if_pos stands.isValid]
  rfl

theorem slice_eq (stands : Stands text offset cursor) {taken rest : List Char}
    (split : cursor.rest = taken ++ rest) (place : Nat) :
    slice text offset (offset + byteSize taken) place = .ok (String.ofList taken) place := by
  have ends := (stands.past split).isValid
  have part : String.Pos.Raw.extract text ⟨offset⟩ ⟨offset + byteSize taken⟩ =
      String.ofList taken :=
    @Path.Cursor.In.extract_eq text _ ⟨offset + byteSize taken, rest⟩ taken stands.inside split rfl
  unfold slice
  rw [if_pos ⟨Nat.le_add_right .., stands.isValid, ends⟩, part]
  rfl

theorem character?_eq (stands : Stands text offset cursor) :
    character? text offset = .ok cursor.peek offset := by
  have left := slice_eq stands (List.append_nil cursor.rest).symm offset
  rw [← stands.size_eq] at left
  refine (bind_of_ok (get_eq _)).trans ((bind_of_ok left).trans ?_)
  rw [String.toList_ofList]
  rfl

theorem advance_eq {sign : Char} (ascii : IsAscii sign) (stands : Stands text offset cursor)
    (here : cursor.isAt sign = true) :
    advance text offset = .ok () (offset + 1) ∧ Stands text (offset + 1) cursor.next := by
  rcases cursor with ⟨line, _ | ⟨character, rest⟩⟩
  · cases here
  · have same : character = sign := by simpa using here
    subst same
    have there : Stands text (offset + 1) ((Cursor.mk line (character :: rest)).next) := by
      have size : byteSize [character] = 1 :=
        Path.Bytes.utf8Size_of_ascii ascii
      rw [← size]
      exact stands.past rfl
    have before : offset < text.utf8ByteSize := there.offset_le
    refine ⟨(bind_of_ok (get_eq _)).trans ?_, there⟩
    rw [if_pos before]
    exact moveTo_eq there offset

theorem advanceCharacter_eq {line : Nat} {character : Char} {rest : List Char}
    (stands : Stands text offset ⟨line, character :: rest⟩) :
    advanceCharacter text offset = .ok () (offset + character.utf8Size) ∧
      Stands text (offset + character.utf8Size) ⟨line + [character].count '\n', rest⟩ := by
  have there : Stands text (offset + byteSize [character]) _ := stands.past rfl
  exact ⟨(bind_of_ok (character?_eq stands)).trans
    ((bind_of_ok (get_eq _)).trans (moveTo_eq there offset)), there⟩

theorem passWhile_eq {test : Char → Bool} (uniform : Uniform test)
    (stands : Stands text offset cursor) :
    passWhile text test offset = .ok () (offset + byteSize (cursor.ahead test)) := by
  refine (bind_of_ok (get_eq _)).trans ?_
  rw [stands.endOf_eq uniform]
  exact moveTo_eq (stands.skip test) offset

theorem follows_passWhile {test : Char → Bool} (uniform : Uniform test) :
    Follows text (passWhile text test) (Document.Scanner.skip test) := by
  intro offset cursor stands
  rw [passWhile_eq uniform stands]
  exact .ok (stands.skip test)

/-! ## Tests -/

theorem uniform_contains {signs : List Char} (ascii : ∀ sign ∈ signs, IsAscii sign) :
    Uniform signs.contains :=
  Path.Bytes.uniform_of_isAscii fun passes => ascii _ (List.contains_iff_mem.mp passes)

theorem uniform_not {test : Char → Bool} (uniform : Uniform test) :
    Uniform fun character => !test character := by
  rcases uniform with ⟨answer, same⟩
  exact ⟨!answer, fun character wide => congrArg not (same character wide)⟩

theorem uniform_isGap : Uniform isGap := by
  refine Path.Bytes.uniform_of_isAscii fun {character} passes => ?_
  simp only [isGap, Bool.or_eq_true, beq_iff_eq] at passes
  rcases passes with rfl | rfl <;> decide

theorem uniform_isGapOrLineEnd : Uniform isGapOrLineEnd := by
  refine Path.Bytes.uniform_of_isAscii fun {character} passes => ?_
  simp only [isGapOrLineEnd, isGap, Bool.or_eq_true, beq_iff_eq] at passes
  rcases passes with ((rfl | rfl) | rfl) | rfl <;> decide

theorem uniform_beginsText : Uniform beginsText := by
  refine ⟨true, fun character wide => ?_⟩
  have beyond : 128 ≤ character.toNat := Nat.not_lt.mp wide
  simp [beginsText, beyond]

/-! ## Parts -/

theorem takeUntil_eq {stops : List Char} (ascii : ∀ stop ∈ stops, IsAscii stop)
    (stands : Stands text offset cursor) :
    takeUntil text stops offset =
      .ok (String.ofList (cursor.ahead fun character => !stops.contains character))
        (offset + byteSize (cursor.ahead fun character => !stops.contains character)) := by
  refine (bind_of_ok (get_eq _)).trans ?_
  refine (bind_of_ok (passWhile_eq (uniform_not (uniform_contains ascii)) stands)).trans ?_
  exact (bind_of_ok (get_eq _)).trans
    (slice_eq stands List.takeWhile_append_dropWhile.symm _)

theorem Follows.takeUntil_bind {stops : List Char} (ascii : ∀ stop ∈ stops, IsAscii stop)
    {next : String → Scanner α} {nextReader : List Char → Document.Scanner α}
    (rest : ∀ taken, Follows text (next (String.ofList taken)) (nextReader taken)) :
    Follows text (takeUntil text stops >>= next)
      (Document.Scanner.takeUntil stops >>= nextReader) := by
  intro offset cursor stands
  have taken : Document.Scanner.takeUntil stops cursor =
      .ok (cursor.ahead fun character => !stops.contains character)
        (cursor.skip fun character => !stops.contains character) := rfl
  rw [bind_of_ok (takeUntil_eq ascii stands), bind_of_ok taken]
  exact rest _ _ _ (stands.skip _)

/-! ## Choices -/

theorem peek_eq (text : String) (offset : Nat) :
    peek text offset = .ok (byteAt text offset) offset := rfl

theorem agrees_ite_sign {sign : Char} (ascii : IsAscii sign) (stands : Stands text offset cursor)
    {found missing : Scanner α} {foundReader missingReader : Document.Scanner α}
    (here : cursor.isAt sign = true → Agrees text (found offset) (foundReader cursor))
    (elsewhere : cursor.isAt sign = false → Agrees text (missing offset) (missingReader cursor)) :
    Agrees text ((do if (← peek text) = some sign then found else missing : Scanner α) offset)
      ((do if (← get).isAt sign then foundReader else missingReader : Document.Scanner α)
        cursor) := by
  rw [bind_of_ok (peek_eq text _), bind_of_ok (get_eq cursor)]
  cases atSign : cursor.isAt sign with
  | true =>
    rw [if_pos ((stands.byteAt_eq_iff ascii).mpr atSign), if_pos rfl]
    exact here atSign
  | false =>
    rw [if_neg (stands.byteAt_ne ascii atSign), if_neg Bool.false_ne_true]
    exact elsewhere atSign

theorem agrees_ite_end (stands : Stands text offset cursor) {ended onward : Scanner α}
    {endedReader onwardReader : Document.Scanner α}
    (atEnd : cursor.isAtEnd = true → Agrees text (ended offset) (endedReader cursor))
    (ahead : cursor.isAtEnd = false → Agrees text (onward offset) (onwardReader cursor)) :
    Agrees text ((do if text.utf8ByteSize ≤ (← get) then ended else onward : Scanner α) offset)
      ((do if (← get).isAtEnd then endedReader else onwardReader : Document.Scanner α)
        cursor) := by
  rw [bind_of_ok (get_eq offset), bind_of_ok (get_eq cursor)]
  cases ends : cursor.isAtEnd with
  | true =>
    rw [if_pos (stands.size_le_iff.mpr ends), if_pos rfl]
    exact atEnd ends
  | false =>
    rw [if_neg fun size => by simp [stands.size_le_iff.mp size] at ends,
      if_neg Bool.false_ne_true]
    exact ahead ends

theorem agrees_advance_bind {sign : Char} (ascii : IsAscii sign)
    (stands : Stands text offset cursor) (here : cursor.isAt sign = true)
    {next : Unit → Scanner α} {nextReader : Unit → Document.Scanner α}
    (rest : ∀ behind, Stands text behind cursor.next →
      Agrees text (next () behind) (nextReader () cursor.next)) :
    Agrees text ((advance text >>= next) offset)
      ((Document.Scanner.advance >>= nextReader) cursor) := by
  rcases advance_eq ascii stands here with ⟨ran, there⟩
  have ranReader : Document.Scanner.advance cursor = .ok () cursor.next := rfl
  rw [bind_of_ok ran, bind_of_ok ranReader]
  exact rest _ there

theorem follows_expect {allowed : List Char} (ascii : ∀ sign ∈ allowed, IsAscii sign) :
    Follows text (expect text allowed) (Document.Scanner.expect allowed) := by
  intro offset cursor stands
  have byte := stands.any_byteAt (uniform_contains ascii)
  unfold expect Document.Scanner.expect
  rw [bind_of_ok (peek_eq text _), bind_of_ok (get_eq cursor)]
  rcases cursor with ⟨line, _ | ⟨character, rest⟩⟩
  · rw [Path.Bytes.byteAt_nil stands.inside]
    exact .ok stands
  · rcases Path.Bytes.byteAt_cons stands.inside with ⟨first, -, found⟩
    rw [found] at byte ⊢
    have same : allowed.contains first = allowed.contains character := byte
    cases passes : allowed.contains character with
    | true =>
      simp only [same, passes, Cursor.peek_cons, Bool.not_true, Bool.false_eq_true, ↓reduceIte]
      exact .ok stands
    | false =>
      simp only [same, passes, Cursor.peek_cons, Bool.not_false, Bool.false_eq_true, ↓reduceIte]
      rw [bind_of_ok (character?_eq stands)]
      exact .error stands

/-! ## Values -/

section

variable {line : Nat} {character escaped : Char} {rest : List Char}

theorem textFrom_slash (rounds : Nat) (quoted : Bool) (read : List Char)
    (stands : Stands text offset ⟨line, '\\' :: rest⟩) :
    Stands text (offset + 1) ⟨line, rest⟩ ∧
      textFrom text (rounds + 1) quoted read offset =
        (do match ← character? text with
            | none => return read.reverse
            | some escaped =>
              if escaped = '\r' ∧ byteAt text ((← get) + 1) = some '\n' then advance text
              advanceCharacter text
              textFrom text rounds quoted (unescaped escaped ++ read) :
          Scanner (List Char)) (offset + 1) := by
  have ascii : IsAscii '\\' := by decide
  rcases advance_eq ascii stands rfl with ⟨passed, behind⟩
  refine ⟨behind, ?_⟩
  rw [textFrom, bind_of_ok (character?_eq stands)]
  exact bind_of_ok passed

theorem textFrom_escaped (rounds : Nat) (quoted : Bool) (read : List Char)
    (stands : Stands text offset ⟨line, '\\' :: escaped :: rest⟩)
    (single : escaped = '\r' → rest.head? ≠ some '\n') :
    ∃ next, Stands text next ⟨line + [escaped].count '\n', rest⟩ ∧
      textFrom text (rounds + 1) quoted read offset =
        textFrom text rounds quoted (unescaped escaped ++ read) next := by
  rcases textFrom_slash rounds quoted read stands with ⟨behind, same⟩
  rcases advanceCharacter_eq behind with ⟨passed, there⟩
  have alone : ¬ (escaped = '\r' ∧ byteAt text (offset + 1 + 1) = some '\n') := by
    rintro ⟨rfl, feed⟩
    have ascii : IsAscii '\r' := by decide
    have further := (advance_eq ascii behind rfl).2
    have atFeed := (further.byteAt_eq_iff (by decide)).mp feed
    exact single rfl (beq_iff_eq.mp atFeed)
  refine ⟨_, there, same.trans ((bind_of_ok (character?_eq behind)).trans ?_)⟩
  refine (bind_of_ok (get_eq _)).trans ?_
  rw [if_neg alone]
  exact bind_of_ok passed

theorem textFrom_escapedLineEnd (rounds : Nat) (quoted : Bool) (read : List Char)
    (stands : Stands text offset ⟨line, '\\' :: '\r' :: '\n' :: rest⟩) :
    ∃ next, Stands text next ⟨line + 1, rest⟩ ∧
      textFrom text (rounds + 1) quoted read offset = textFrom text rounds quoted read next := by
  rcases textFrom_slash rounds quoted read stands with ⟨behind, same⟩
  have ascii : IsAscii '\r' := by decide
  rcases advance_eq ascii behind rfl with ⟨passed, further⟩
  have feed : byteAt text (offset + 1 + 1) = some '\n' :=
    (further.byteAt_eq_iff (by decide)).mpr rfl
  rcases advanceCharacter_eq further with ⟨passedFeed, there⟩
  refine ⟨_, there, same.trans ((bind_of_ok (character?_eq behind)).trans ?_)⟩
  refine (bind_of_ok (get_eq _)).trans ?_
  rw [if_pos ⟨rfl, feed⟩]
  exact (bind_of_ok passed).trans (bind_of_ok passedFeed)

theorem advanceCharacter_bind {next : Unit → Scanner α}
    (stands : Stands text offset ⟨line, character :: rest⟩) (visible : character ≠ '\n') :
    ∃ behind, Stands text behind ⟨line, rest⟩ ∧
      (advanceCharacter text >>= next) offset = next () behind := by
  rcases advanceCharacter_eq stands with ⟨passed, there⟩
  rw [List.count_singleton, if_neg (by simpa using visible)] at there
  exact ⟨_, there, bind_of_ok passed⟩

theorem textFrom_quote (rounds : Nat) (quoted : Bool) (read : List Char)
    (stands : Stands text offset ⟨line, '"' :: rest⟩) :
    ∃ next, Stands text next ⟨line, rest⟩ ∧
      textFrom text (rounds + 1) quoted read offset = textFrom text rounds (!quoted) read next := by
  rcases advanceCharacter_bind stands (by decide) with ⟨next, there, passed⟩
  refine ⟨next, there, ?_⟩
  rw [textFrom, bind_of_ok (character?_eq stands)]
  exact passed

theorem textFrom_plain (rounds : Nat) (quoted : Bool) (read : List Char)
    (stands : Stands text offset ⟨line, character :: rest⟩) (noSlash : character ≠ '\\')
    (noQuote : character ≠ '"') :
    textFrom text (rounds + 1) quoted read offset =
      (if character = '\r' ∨ character = '\n' then pure read.reverse
        else if quoted then do
          advanceCharacter text
          textFrom text rounds quoted (character :: read)
        else if isGap character then do
          advanceCharacter text
          textFrom text rounds quoted read
        else if textStops.contains character then pure read.reverse
        else do
          advanceCharacter text
          textFrom text rounds quoted (character :: read) : Scanner (List Char)) offset := by
  rw [textFrom, bind_of_ok (character?_eq stands)]
  simp only [Cursor.peek_cons]

end

/-- A text is read byte by byte as it is character by character, where there are more rounds than
characters. -/
theorem textFrom_eq (quoted : Bool) (line : Nat) (read rest : List Char) {rounds : Nat}
    (stands : Stands text offset ⟨line, rest⟩) (enough : rest.length < rounds) :
    ∃ finish, textFrom text rounds quoted read offset =
        .ok (readText quoted line read rest).1 finish ∧
      Stands text finish (readText quoted line read rest).2 := by
  -- The pattern of the plain characters says in several parts that no backslash stands there.
  have noSlash {character : Char} {rest : List Char}
      (last : character = '\\' → rest = [] → False)
      (inner : ∀ escaped others, character = '\\' → rest = escaped :: others → False) :
      character ≠ '\\' := by
    intro slash
    cases rest with
    | nil => exact last slash rfl
    | cons escaped others => exact inner escaped others slash rfl
  fun_induction readText quoted line read rest generalizing offset rounds with
    obtain ⟨rounds, rfl⟩ := Nat.exists_eq_succ_of_ne_zero (Nat.ne_zero_of_lt enough)
  | case1 quoted line read =>
    refine ⟨offset, ?_, stands⟩
    rw [textFrom, bind_of_ok (character?_eq stands)]
    rfl
  | case2 quoted line read =>
    rcases textFrom_slash rounds quoted read stands with ⟨behind, same⟩
    exact ⟨_, same.trans (bind_of_ok (character?_eq behind)), behind⟩
  | case3 quoted line read rest induction
  | case4 quoted line read rest induction
  | case7 quoted line read rest induction =>
    rcases textFrom_escaped rounds quoted read stands fun same => absurd same (by decide) with
      ⟨next, there, same⟩
    rw [same]
    exact induction there (Nat.lt_of_succ_lt (Nat.lt_of_succ_lt_succ enough))
  | case5 quoted line read rest induction =>
    rcases textFrom_escapedLineEnd rounds quoted read stands with ⟨next, there, same⟩
    rw [same]
    exact induction there (Nat.lt_of_succ_lt (Nat.lt_of_succ_lt (Nat.lt_of_succ_lt_succ enough)))
  | case6 quoted line read rest alone induction =>
    have single : rest.head? ≠ some '\n' := fun feed =>
      alone _ (List.eq_cons_of_mem_head? feed)
    rcases textFrom_escaped rounds quoted read stands fun _ => single with ⟨next, there, same⟩
    rw [same]
    exact induction there (Nat.lt_of_succ_lt (Nat.lt_of_succ_lt_succ enough))
  | case8 quoted line read escaped rest notN notT _ notReturn notFeed induction =>
    have itself : unescaped escaped = [escaped] := by
      unfold unescaped
      split <;> first | rfl | contradiction
    rcases textFrom_escaped rounds quoted read stands (absurd · notReturn) with ⟨next, there, same⟩
    rw [List.count_singleton, if_neg (by simpa using notFeed)] at there
    rw [same, itself]
    exact induction there (Nat.lt_of_succ_lt (Nat.lt_of_succ_lt_succ enough))
  | case9 quoted line read rest induction =>
    rcases textFrom_quote rounds quoted read stands with ⟨next, there, same⟩
    rw [same]
    exact induction there (Nat.lt_of_succ_lt_succ enough)
  | case10 quoted line read character rest last _ _ _ _ _ inner noQuote lineEnd =>
    refine ⟨offset, ?_, stands⟩
    rw [textFrom_plain rounds _ _ stands (noSlash last inner) noQuote, if_pos lineEnd]
    rfl
  | case11 line read character rest last _ _ _ _ _ inner noQuote visible induction =>
    rw [textFrom_plain rounds _ _ stands (noSlash last inner) noQuote, if_neg visible, if_pos rfl]
    rcases advanceCharacter_bind stands (not_or.mp visible).2 with ⟨next, there, passed⟩
    rw [passed]
    exact induction there (Nat.lt_of_succ_lt_succ enough)
  | case12 quoted line read character rest last _ _ _ _ _ inner noQuote visible open_ gap
      induction =>
    rw [textFrom_plain rounds _ _ stands (noSlash last inner) noQuote, if_neg visible, if_neg open_,
      if_pos gap]
    rcases advanceCharacter_bind stands (not_or.mp visible).2 with ⟨next, there, passed⟩
    rw [passed]
    exact induction there (Nat.lt_of_succ_lt_succ enough)
  | case13 quoted line read character rest last _ _ _ _ _ inner noQuote visible open_ gap stop =>
    refine ⟨offset, ?_, stands⟩
    rw [textFrom_plain rounds _ _ stands (noSlash last inner) noQuote, if_neg visible, if_neg open_,
      if_neg gap, if_pos stop]
    rfl
  | case14 quoted line read character rest last _ _ _ _ _ inner noQuote visible open_ gap stop
      induction =>
    rw [textFrom_plain rounds _ _ stands (noSlash last inner) noQuote, if_neg visible, if_neg open_,
      if_neg gap, if_neg stop]
    rcases advanceCharacter_bind stands (not_or.mp visible).2 with ⟨next, there, passed⟩
    rw [passed]
    exact induction there (Nat.lt_of_succ_lt_succ enough)

theorem Stands.length_lt (stands : Stands text offset cursor) :
    cursor.rest.length < text.utf8ByteSize + 1 := by
  have size := stands.size_eq
  have bytes := Path.length_le_byteSize cursor.rest
  omega

theorem follows_value : Follows text (value text) Document.Scanner.value := by
  intro offset cursor stands
  have choice : Document.Scanner.value cursor =
      (if cursor.peek.any beginsText then Document.Scanner.text
        else Document.Scanner.literal) cursor := by
    rcases cursor with ⟨line, _ | ⟨character, rest⟩⟩ <;> rfl
  rw [choice]
  refine (congrArg (Agrees text · _) (bind_of_ok (peek_eq text offset))).mpr ?_
  rw [stands.any_byteAt uniform_beginsText]
  split
  · rcases textFrom_eq false cursor.line [] cursor.rest stands stands.length_lt with
      ⟨finish, ran, there⟩
    rw [bind_of_ok ran]
    exact .ok there
  · have literal : Follows text
        (do return .ofLiteral (← takeUntil text literalStops)) Document.Scanner.literal :=
      .takeUntil_bind (by simp [literalStops, IsAscii]) fun taken => .pure _
    exact literal offset cursor stands

/-! ## Records -/

theorem follows_pair : Follows text (pair text) Document.Scanner.pair := by
  have valued (key : String) : Follows text
      (do passWhile text isGap; return some (key, ← value text))
      (do Document.Scanner.skip isGap; return some (key, ← Document.Scanner.value)) :=
    (follows_passWhile uniform_isGap).bind fun _ => follows_value.bind fun found => .pure _
  refine (follows_passWhile uniform_isGap).bind fun _ =>
    .takeUntil_bind (by simp [keyStops, IsAscii]) fun taken => ?_
  refine (follows_passWhile uniform_isGap).bind fun _ offset cursor stands => ?_
  refine agrees_ite_sign (by decide) stands (fun sign => ?_) fun _ => ?_
  · exact agrees_advance_bind (by decide) stands sign (valued _ · _)
  · split
    · exact .ok stands
    · exact .ok stands

/-- Each round takes a comma, so there are rounds enough where there are no fewer than
characters. -/
theorem agrees_pairs (rounds : List Char) {fuel : Nat} (stands : Stands text offset cursor)
    (enough : cursor.rest.length ≤ rounds.length) (enoughFuel : cursor.rest.length < fuel) :
    Agrees text (pairs text fuel offset) (Document.Scanner.pairs rounds cursor) := by
  induction rounds generalizing fuel offset cursor with
    obtain ⟨fuel, rfl⟩ := Nat.exists_eq_succ_of_ne_zero (Nat.ne_zero_of_lt enoughFuel)
  | nil =>
    have ends : cursor.isAtEnd = true :=
      List.isEmpty_iff_length_eq_zero.mpr (Nat.le_zero.mp enough)
    rw [pairs, bind_of_ok (get_eq offset), if_pos (stands.size_le_iff.mpr ends)]
    exact .ok stands
  | cons round rounds induction =>
    refine agrees_ite_end stands (fun _ => .ok stands) fun _ => ?_
    refine (follows_pair offset cursor stands).bind fun first _ afterPair ranPair there => ?_
    refine (follows_passWhile uniform_isGap _ _ there).bind fun _ _ afterGap ranGap there => ?_
    refine agrees_ite_sign (by decide) there (fun comma => ?_) fun _ => .ok there
    refine agrees_advance_bind (by decide) there comma fun _ behind => ?_
    refine (follows_passWhile uniform_isGapOrLineEnd _ _ behind).bind
      fun _ _ ahead ranBlank there => ?_
    refine agrees_ite_end there (fun _ => .ok there) fun _ => ?_
    have less : ahead.rest.length < cursor.rest.length := by
      have pair := (Document.Scanner.forward_pair.reaches ranPair).length_le
      have gap := ((Document.Scanner.forward_skip _).reaches ranGap).length_le
      have taken := Cursor.length_next_lt (Cursor.ne_nil_of_isAt comma)
      have blank := ((Document.Scanner.forward_skip _).reaches ranBlank).length_le
      omega
    have others := induction there (Nat.le_of_lt_succ (Nat.lt_of_lt_of_le less enough))
      (Nat.lt_of_lt_of_le less (Nat.le_of_lt_succ enoughFuel))
    exact others.bind fun _ _ _ _ => .ok

theorem follows_attributes : Follows text (attributes text) Document.Scanner.attributes := by
  have enough : Follows text (pairs text (text.utf8ByteSize + 1))
      (do Document.Scanner.pairs (← get).rest) := fun offset cursor stands =>
    agrees_pairs cursor.rest stands (Nat.le_refl _) stands.length_lt
  intro offset cursor stands
  refine agrees_ite_sign (by decide) stands (fun comma => ?_) fun _ => ?_
  · exact agrees_advance_bind (by decide) stands comma
      ((follows_passWhile uniform_isGapOrLineEnd).bind (fun _ => enough) · _)
  · exact (follows_passWhile uniform_isGap).bind (fun _ => enough) offset cursor stands

theorem follows_headed (begins : Char → Bool) (problem : String → Problem) {stops : List Char}
    (ascii : ∀ stop ∈ stops, IsAscii stop) :
    Follows text (headed text stops begins problem)
      (Document.Scanner.takeUntil stops >>= Document.Scanner.headed begins problem) := by
  refine .takeUntil_bind ascii fun taken => ?_
  have behind : Follows text
      (do passWhile text isGap; expect text headerEnds; return String.ofList taken)
      (do Document.Scanner.skip isGap; Document.Scanner.expect headerEnds
          return String.ofList taken) :=
    (follows_passWhile uniform_isGap).bind fun _ =>
      (follows_expect (by simp [headerEnds, IsAscii])).bind fun _ => .pure _
  rw [String.toList_ofList]
  unfold Document.Scanner.headed
  cases taken.head? with
  | none => exact behind
  | some first =>
    dsimp only
    cases begins first with
    | true => exact behind
    | false => exact (Follows.throw _).bind fun _ => behind

theorem follows_name : Follows text (name text) Document.Scanner.name :=
  (follows_passWhile uniform_isGap).bind fun _ =>
    follows_headed beginsName .invalidName (by simp [nameStops, IsAscii])

theorem follows_typeName : Follows text (typeName text) Document.Scanner.typeName := by
  have headed := @follows_headed text Text.isAlphabetic .invalidType typeStops
    (by simp [typeStops, IsAscii])
  intro offset cursor stands
  refine agrees_ite_sign (by decide) stands (fun sign => ?_) fun _ => ?_
  · exact agrees_advance_bind (by decide) stands sign
      ((follows_passWhile uniform_isGap).bind (fun _ => headed) · _)
  · exact headed offset cursor stands

theorem follows_record (options : Options) :
    Follows text (record text options) (Document.Scanner.record options) := by
  refine follows_name.bind fun name => ?_
  split
  · exact follows_typeName.bind fun typeName => follows_attributes.bind fun _ => .pure _
  · exact follows_attributes.bind fun _ => .pure _

end RecordGraph.Document.Bytes
