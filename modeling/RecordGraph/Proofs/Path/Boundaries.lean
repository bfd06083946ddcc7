import RecordGraph.Proofs.Path.Offsets

/-!
# Paths read byte by byte

Read byte by byte, a path passes over single bytes of a text that may hold characters of several
bytes, and cuts out parts of it wherever it happens to stand. From a place between two characters
the scanners do what the readers of characters do, a step at a time: each ends between two
characters, also where it fails, and no part is cut out through a character.
-/

namespace RecordGraph.Path
namespace Bytes

variable {text : String} {start : Cursor}

/-! ### Scanners that follow readers -/

def outcome : EStateM.Result Error Cursor α → EStateM.Result Stop Nat α
  | .ok result finish => .ok result finish.position
  | .error failure finish => .error (.failed failure) finish.position

def Follows (text : String) (scanner : Scanner α) (reader : Reader α) : Prop :=
  ∀ start : Cursor, start.In text → scanner start.position = outcome (reader start)

theorem outcome_bind {scanner : Scanner α} {reader : Reader α} {next : α → Scanner β}
    {nextReader : α → Reader β} (first : scanner start.position = outcome (reader start))
    (rest : ∀ result finish, reader start = .ok result finish →
      next result finish.position = outcome (nextReader result finish)) :
    (scanner >>= next) start.position = outcome ((reader >>= nextReader) start) := by
  cases ran : reader start with
  | ok result finish =>
    rw [ran] at first
    rw [bind_of_ok first, bind_of_ok ran, rest result finish ran]
  | error failure finish =>
    rw [ran] at first
    rw [bind_of_error first, bind_of_error ran]
    rfl

theorem in_of_ok {reader : Reader α} (advances : reader.Advances) {finish : Cursor} {result : α}
    (inside : start.In text) (ran : reader start = .ok result finish) : finish.In text := by
  have reaches := advances start
  rw [ran] at reaches
  exact inside.reaches reaches

namespace Follows

variable {scanner : Scanner α} {reader : Reader α}

theorem pure (result : α) : Follows text (Pure.pure result) (Pure.pure result) :=
  fun _ _ => rfl

theorem throw (failure : Error) :
    Follows text (MonadExcept.throw (.failed failure) : Scanner α) (MonadExcept.throw failure) :=
  fun _ _ => rfl

theorem bind (first : Follows text scanner reader) (advances : reader.Advances)
    {next : α → Scanner β} {nextReader : α → Reader β}
    (rest : ∀ result, Follows text (next result) (nextReader result)) :
    Follows text (scanner >>= next) (reader >>= nextReader) := by
  intro start inside
  exact outcome_bind (first start inside) fun result finish ran =>
    rest result finish (in_of_ok advances inside ran)

end Follows

theorem advance_eq {mark : Char} (ascii : IsAscii mark) (stands : start.rest.head? = some mark) :
    advance start.position = outcome (Reader.advance start) := by
  rcases start with ⟨position, _ | ⟨character, rest⟩⟩
  · cases stands
  · rw [List.head?_cons, Option.some_inj] at stands
    subst stands
    have size := utf8Size_of_ascii ascii
    change EStateM.Result.ok () (position + 1) = .ok () (position + character.utf8Size)
    rw [size]

theorem advanceCharacter_eq (inside : start.In text) {character : Char} {rest : List Char}
    (stands : start.rest = character :: rest) :
    advanceCharacter text start.position = outcome (Reader.advance start) := by
  rcases start with ⟨position, left⟩
  cases stands
  refine (bind_of_ok (remainder_eq inside)).trans ?_
  have size : text.utf8ByteSize = position + byteSize (character :: rest) := inside.size_eq
  have within : position + character.utf8Size ≤ text.utf8ByteSize := by
    rw [size, byteSize_cons]
    omega
  exact congrArg (EStateM.Result.ok ()) (Nat.min_eq_left within)

theorem skipPast_eq {mark : Char} (ascii : IsAscii mark) (inside : start.In text) :
    skipPast text mark start.position = outcome (Reader.skipPast mark start) := by
  have stopped := Cursor.takeWhile_rest (· != mark) start.position start.rest
  have later := inside.reaches (Cursor.reaches_takeWhile (· != mark) start.position start.rest)
  refine (bind_of_ok (passWhile_eq (uniform_ne ascii) inside)).trans ?_
  change _ = EStateM.Result.ok () (Cursor.skipPast mark start.position start.rest).position
  rw [skipPast_eq_next]
  refine congrArg (EStateM.Result.ok ()) ?_
  generalize (Cursor.takeWhile (· != mark) start.position start.rest).2 = stop at stopped later ⊢
  rcases stop with ⟨position, _ | ⟨character, rest⟩⟩
  · have size : text.utf8ByteSize = position := later.size_eq
    exact (congrArg (min _) size).trans (Nat.min_eq_right (Nat.le_succ _))
  · have found := List.head?_dropWhile_not (· != mark) start.rest
    rw [← stopped] at found
    have same : character = mark := by simpa using found
    have size : text.utf8ByteSize = position + byteSize (character :: rest) := later.size_eq
    rw [byteSize_cons, same, utf8Size_of_ascii ascii] at size
    change min (position + 1) _ = position + character.utf8Size
    rw [same, utf8Size_of_ascii ascii]
    omega

/-! ### The readers of paths over bytes -/

theorem peek_eq (text : String) (offset : Nat) :
    peek text offset = .ok (byteAt text offset) offset := rfl

theorem outcome_ite_mark {mark : Char} (ascii : IsAscii mark) (inside : start.In text)
    {found missing : Scanner α} {foundReader missingReader : Reader α}
    (stands : start.rest.head? = some mark →
      found start.position = outcome (foundReader start))
    (fails : start.rest.head? ≠ some mark →
      missing start.position = outcome (missingReader start)) :
    (do if (← peek text) = some mark then found else missing : Scanner α) start.position =
      outcome ((do if (← Reader.peek) = some mark then foundReader else missingReader) start) := by
  rw [bind_of_ok (peek_eq text _), bind_of_ok (Reader.peek_eq start)]
  by_cases here : start.rest.head? = some mark
  · rw [if_pos here, if_pos ((byteAt_eq_iff ascii inside).mpr here), stands here]
  · rw [if_neg here, if_neg fun byte => here ((byteAt_eq_iff ascii inside).mp byte), fails here]

theorem outcome_advance_bind {mark : Char} (ascii : IsAscii mark) (inside : start.In text)
    (stands : start.rest.head? = some mark) {next : Unit → Scanner α} {nextReader : Unit → Reader α}
    (rest : Follows text (next ()) (nextReader ())) :
    (advance >>= next) start.position = outcome ((Reader.advance >>= nextReader) start) :=
  outcome_bind (advance_eq ascii stands) fun _ _ ran => rest _ (in_of_ok .advance inside ran)

section Grammar

variable (table : SymbolTable) (arena : Arena) {deeper : String → Bool → Scanner Target}
  {deeperReader : Bool → Reader Target}
  (follows : ∀ text nested, Follows text (deeper text nested) (deeperReader nested))
  (advances : ∀ nested, (deeperReader nested).Advances)

theorem follows_expect {mark : Char} (ascii : IsAscii mark) (failure : Nat → Error) :
    Follows text (expect table text mark failure) (Path.expect table mark failure) := by
  intro start inside
  refine outcome_ite_mark ascii inside (advance_eq ascii) fun _ => ?_
  by_cases mends : table.robust = true
  · rw [if_pos mends, if_pos mends]
    exact skipPast_eq ascii inside
  · rw [if_neg mends, if_neg mends]
    rfl

theorem follows_closeBracket : Follows text (closeBracket table text) (Path.closeBracket table) :=
  follows_expect table (by decide) .unclosedIndex

theorem follows_badIndex (offset : Nat) :
    Follows text (badIndex table offset) (Path.badIndex table offset) := by
  unfold badIndex Path.badIndex
  split
  · exact .pure _
  · exact .throw _

theorem follows_indexOfValue (value : Value) (offset : Nat) :
    Follows text (indexOfValue table value offset) (Path.indexOfValue table value offset) := by
  unfold indexOfValue Path.indexOfValue
  cases indexInteger? value with
  | none => exact follows_badIndex table offset
  | some integer =>
    by_cases counts : 0 ≤ integer
    · simp only [if_pos counts]
      exact .pure _
    · simp only [if_neg counts]
      exact follows_badIndex table offset

theorem leadingIdentifier_eq (text : String) (offset : Nat) :
    leadingIdentifier text offset =
      .ok (String.ofList (Path.leadingIdentifier text.toList)) offset := by
  have inside := Cursor.in_ofText text
  have split := takeWhile_split continuesIdentifier (Cursor.ofText text)
  have stop := endOf_eq uniform_continuesIdentifier inside
  unfold leadingIdentifier
  cases characters : text.toList with
  | nil =>
    simp only [Cursor.ofText, characters] at inside
    rw [byteAt_nil inside]
    rfl
  | cons character rest =>
    have first := inside
    simp only [Cursor.ofText, characters] at first
    rcases byteAt_cons first with ⟨byte, member, found⟩
    have same := uniform_beginsIdentifier.eq_of_mem_encode member
    rw [found, Option.any_some, same]
    by_cases begins : beginsIdentifier character = true
    · rw [if_pos begins, stop, Path.leadingIdentifier, if_pos begins, ← characters,
        ← Cursor.takeWhile_fst continuesIdentifier 0]
      exact slice_eq inside split.1 split.2
    · rw [if_neg begins, Path.leadingIdentifier, if_neg begins]
      rfl

include follows advances

theorem insideParens_outcome (inside : start.In text) (stands : start.rest.head? = some '(') :
    insideParens table arena deeper text start.position =
      outcome (Path.insideParens table arena deeperReader start) := by
  rw [insideParens_eq]
  unfold insideParens
  refine outcome_advance_bind (by decide) inside stands ?_
  refine .bind (follows text true) (advances true) fun target => ?_
  split
  · exact .pure _
  · exact .bind (follows_expect table (by decide) .unclosedParen)
      (advances_expect table ')' .unclosedParen) fun _ => .pure _

theorem follows_identifier :
    Follows text (identifier table arena deeper text)
      (Path.identifier table arena deeperReader) := by
  intro start inside
  unfold identifier Path.identifier
  rw [bind_of_ok (peek_eq text _), bind_of_ok (Reader.peek_eq start)]
  rcases start with ⟨position, _ | ⟨character, rest⟩⟩
  · rw [byteAt_nil inside]
    rfl
  rcases byteAt_cons inside with ⟨byte, member, found⟩
  have begins := uniform_beginsIdentifier.eq_of_mem_encode member
  rw [found]
  by_cases dollar : character = '$'
  · subst dollar
    rw [encode_of_ascii (by decide), List.mem_singleton] at member
    subst member
    refine outcome_advance_bind (by decide) inside rfl fun start inside => ?_
    refine outcome_ite_mark (by decide) inside (fun computed => ?_) fun _ => rfl
    refine outcome_bind (insideParens_outcome table arena follows advances inside computed) ?_
    exact fun value finish _ => leadingIdentifier_eq value.toText finish.position
  · have other : byte ≠ '$' := fun same => dollar <| by
      have equal : (byte == '$') = (character == '$') :=
        (uniform_eq (by decide)).eq_of_mem_encode member
      rwa [same, beq_self_eq_true, eq_comm, beq_iff_eq] at equal
    simp only [List.head?_cons, begins]
    by_cases first : beginsIdentifier character = true
    · simp only [first, if_true]
      have passes : (byteAt text position).any continuesIdentifier = true := by
        rw [found, Option.any_some, uniform_continuesIdentifier.eq_of_mem_encode member]
        exact continuesIdentifier_of_begins first
      exact (cut_of_passes passes).trans (cut_eq uniform_continuesIdentifier inside)
    · simp only [first]
      exact outcome_bind (advanceCharacter_eq inside rfl) fun _ _ _ => rfl

theorem follows_indexValue :
    Follows text (indexValue table arena deeper text)
      (Path.indexValue table arena deeperReader) := by
  intro start inside
  unfold indexValue Path.indexValue
  refine (bind_of_ok (get_eq _)).trans ?_
  rw [bind_of_ok (peek_eq text _)]
  refine Eq.trans ?_ (congrArg outcome (bind_of_ok (get_eq _))).symm
  rw [bind_of_ok (Reader.peek_eq start)]
  rcases start with ⟨position, _ | ⟨character, rest⟩⟩
  · rw [byteAt_nil inside]
    exact follows_badIndex table position _ inside
  rcases byteAt_cons inside with ⟨byte, member, found⟩
  have begins := uniform_beginsIdentifier.eq_of_mem_encode member
  have digit := uniform_isDigit.eq_of_mem_encode member
  have dollar : (byte == '$') = (character == '$') :=
    (uniform_eq (by decide)).eq_of_mem_encode member
  have same : byte = '$' ↔ character = '$' := by rw [← beq_iff_eq, dollar, beq_iff_eq]
  rw [found]
  simp only [List.head?_cons, digit, begins, same]
  by_cases literal : Text.isDigit character = true
  · simp only [literal, if_true]
    have taken := Reader.takeWhile_eq Text.isDigit ⟨position, character :: rest⟩
    rw [bind_of_ok (cut_eq uniform_isDigit inside), bind_of_ok taken, String.toList_ofList]
    split
    · rfl
    · exact follows_badIndex table position _ (in_of_ok (.takeWhile _) inside taken)
  by_cases indirect : character = '$'
  · simp only [if_neg literal, if_pos indirect]
    refine outcome_advance_bind (by decide) inside (congrArg some indirect) ?_
    exact .bind (follows text true) (advances true) fun target =>
      follows_indexOfValue table (target.value arena) position
  by_cases name : beginsIdentifier character = true
  · simp only [if_neg literal, if_neg indirect, if_pos name]
    exact Follows.bind (follows text true) (advances true)
      (fun target => follows_indexOfValue table (target.value arena) position) _ inside
  · simp only [if_neg literal, if_neg indirect, if_neg name]
    exact follows_badIndex table position _ inside

theorem indices_outcome {rounds : List Char} {scannerRounds : Nat} (inside : start.In text)
    (enough : start.rest.length ≤ rounds.length) (more : start.rest.length < scannerRounds)
    (current : Option NodeId) :
    indices table arena deeper text scannerRounds current start.position =
      outcome (Path.indices table arena deeperReader rounds current start) := by
  induction rounds generalizing start scannerRounds current with
  | nil =>
    obtain ⟨scannerRounds, rfl⟩ := Nat.exists_eq_succ_of_ne_zero (Nat.ne_zero_of_lt more)
    have none : start.rest.head? ≠ some '[' := by
      rw [List.eq_nil_of_length_eq_zero (Nat.le_zero.mp enough)]
      exact nofun
    rw [Path.indices_of_no_bracket none]
    unfold indices
    rw [bind_of_ok (peek_eq text _),
      if_neg fun found => none ((byteAt_eq_iff (by decide) inside).mp found)]
    rfl
  | cons round rounds induction =>
    obtain ⟨scannerRounds, rfl⟩ := Nat.exists_eq_succ_of_ne_zero (Nat.ne_zero_of_lt more)
    unfold indices Path.indices
    refine outcome_ite_mark (by decide) inside (fun bracket => ?_) fun _ => rfl
    have next : start.next.In text := inside.reaches (Cursor.reaches_next start)
    refine outcome_bind (advance_eq (by decide) bracket) fun _ _ advanced => ?_
    cases advanced
    refine outcome_bind (follows_indexValue table arena follows advances _ next)
      fun index place read => ?_
    have indexed := in_of_ok (advances_indexValue table arena advances) next read
    refine outcome_bind (follows_closeBracket table _ indexed) fun _ closed ended => ?_
    have later := in_of_ok (advances_closeBracket table) indexed ended
    have positive : 0 < start.rest.length := by
      refine List.length_pos_of_ne_nil fun empty => ?_
      rw [empty] at bracket
      cases bracket
    have first := start.next_rest_length
    have second := (advances_indexValue table arena advances).length_le read
    have third := (advances_closeBracket table).length_le ended
    rw [List.length_cons] at enough
    have onward (child : Option NodeId) :
        indices table arena deeper text scannerRounds child closed.position =
          outcome (Path.indices table arena deeperReader rounds child closed) :=
      induction later (by omega) (by omega) child
    cases current <;> cases index <;> exact onward _

theorem follows_primary :
    Follows text (primary table arena deeper text) (Path.primary table arena deeperReader) := by
  intro start inside
  unfold primary Path.primary
  refine outcome_bind (follows_identifier table arena follows advances start inside)
    fun key finish ran => ?_
  have later := in_of_ok (advances_identifier table arena advances) inside ran
  split
  · rfl
  · refine (Eq.trans ?_ (congrArg outcome (bind_of_ok (get_eq _))).symm)
    refine indices_outcome table arena follows advances later (Nat.le_refl _) ?_ _
    have length := length_le_byteSize finish.rest
    rw [later.size_eq]
    omega

theorem follows_attrPart :
    Follows text (attrPart table arena deeper text) (Path.attrPart table arena deeperReader) := by
  intro start inside
  refine outcome_ite_mark (by decide) inside (fun point => ?_) fun _ => rfl
  refine outcome_advance_bind (by decide) inside point ?_
  refine .bind (follows_identifier table arena follows advances)
    (advances_identifier table arena advances) fun name => ?_
  split
  · exact .pure _
  · exact .pure _

omit advances in
theorem follows_readText (expansion : String) (nested : Bool) :
    Follows text (readText (deeper expansion nested))
      (Reader.readText (deeperReader nested) expansion) := by
  intro start inside
  have scanned : deeper expansion nested 0 = _ :=
    follows expansion nested (.ofText expansion) (Cursor.in_ofText expansion)
  unfold readText Reader.readText
  rw [scanned]
  unfold EStateM.run
  cases deeperReader nested (.ofText expansion) with
  | ok target finish => rfl
  | error failure finish => rfl

omit follows advances in
theorem indirection_iff (inside : start.In text) :
    byteAt text start.position = some '$' ∧ byteAt text (start.position + 1) ≠ some '(' ↔
      beginsIndirection start.rest = true := by
  rw [byteAt_eq_iff (by decide) inside]
  rcases start with ⟨position, _ | ⟨character, rest⟩⟩
  · simp [beginsIndirection]
  by_cases dollar : character = '$'
  · subst dollar
    have later : Cursor.In text ⟨position + 1, rest⟩ := inside.reaches (.cons position '$' rest)
    have second : byteAt text (position + 1) = some '(' ↔ rest.head? = some '(' :=
      byteAt_eq_iff (by decide) later
    cases rest with
    | nil => simp [beginsIndirection, second]
    | cons next rest => simp [beginsIndirection, second]
  · simp [beginsIndirection, dollar]

theorem follows_pathOver (nested : Bool) :
    Follows text (pathOver table arena deeper text nested)
      (Path.pathOver table arena deeperReader nested) := by
  intro start inside
  unfold pathOver Path.pathOver
  rw [bind_of_ok (get_eq _), bind_of_ok (get_eq _)]
  have ends : text.utf8ByteSize ≤ start.position ↔ start.rest.isEmpty = true :=
    inside.size_le_iff
  by_cases empty : start.rest.isEmpty = true
  · rw [if_pos empty, if_pos (ends.mpr empty)]
    rfl
  rw [if_neg empty, if_neg fun beyond => empty (ends.mp beyond)]
  by_cases indirect : beginsIndirection start.rest = true
  · have both := (indirection_iff inside).mpr indirect
    have dollar := (byteAt_eq_iff (by decide) inside).mp both.1
    rw [if_pos indirect, if_pos both]
    refine outcome_advance_bind (by decide) inside dollar ?_
    exact .bind (follows text nested) (advances nested) fun target =>
      follows_readText follows (target.value arena).toText nested
  · rw [if_neg indirect, if_neg fun both => indirect ((indirection_iff inside).mp both)]
    refine Follows.bind (follows_primary table arena follows advances)
      (advances_primary table arena advances) (fun node => ?_) start inside
    refine .bind (follows_attrPart table arena follows advances)
      (advances_attrPart table arena advances) fun attr => ?_
    intro finish inside
    have left : decide (finish.position < text.utf8ByteSize) = !finish.rest.isEmpty := by
      cases empty : finish.rest.isEmpty with
      | true => exact decide_eq_false (Nat.not_lt.mpr (inside.size_le_iff.mpr empty))
      | false =>
        refine decide_eq_true (Nat.lt_of_not_le fun beyond => ?_)
        exact Bool.false_ne_true (empty.symm.trans (inside.size_le_iff.mp beyond))
    rw [bind_of_ok (get_eq _), bind_of_ok (get_eq _), left]
    split
    · rfl
    · rfl

end Grammar

section

variable (table : SymbolTable) (arena : Arena)

theorem follows_below (levels : Nat) (text : String) (nested : Bool) :
    Follows text (below table arena levels text nested) (Path.below table arena levels nested) := by
  induction levels generalizing text nested with
  | zero => exact .throw _
  | succ levels induction =>
    exact follows_pathOver table arena induction (advances_below table arena levels) nested

theorem follows_path (text : String) (nested : Bool) :
    Follows text (path table arena text nested) (Path.path table arena nested) :=
  follows_pathOver table arena (follows_below table arena _) (advances_below table arena _) nested

/-! ### Running texts over bytes -/

theorem valueHere_eq (inside : start.In text) :
    valueHere table arena text start.position =
      .ok (valueAt table arena start).1 (valueAt table arena start).2.position := by
  have scanned := follows_path table arena text true start inside
  unfold valueHere valueAt EStateM.run
  rw [scanned]
  cases Path.path table arena true start with
  | ok target finish => rfl
  | error failure finish => rfl

theorem modify_eq (more offset : Nat) :
    (modify (· + more) : Scanner Unit) offset = .ok () (offset + more) := rfl

section

variable {position rounds : Nat} {rest others : List Char}

theorem fillFrom_character {letter : Char} (inside : Cursor.In text ⟨position, letter :: rest⟩)
    (noBackslash : letter ≠ '\\') (noDollar : letter ≠ '$')
    (onward : fillFrom table arena text rounds (position + letter.utf8Size) =
      .ok others text.utf8ByteSize) :
    fillFrom table arena text (rounds + 1) position = .ok (letter :: others) text.utf8ByteSize := by
  unfold fillFrom
  rw [bind_of_ok (remainder_eq inside)]
  simp only
  refine (bind_of_ok (modify_eq _ _)).trans ?_
  rw [bind_of_ok onward]
  rfl

theorem fillFrom_escaped {letter : Char}
    (inside : Cursor.In text ⟨position, '\\' :: letter :: rest⟩)
    (onward : fillFrom table arena text rounds (position + 1 + letter.utf8Size) =
      .ok others text.utf8ByteSize) :
    fillFrom table arena text (rounds + 1) position = .ok (letter :: others) text.utf8ByteSize := by
  have next : Cursor.In text ⟨position + 1, letter :: rest⟩ :=
    inside.reaches (.cons position '\\' (letter :: rest))
  unfold fillFrom
  rw [bind_of_ok (remainder_eq inside)]
  simp only
  rw [bind_of_ok (advance_at position), bind_of_ok (remainder_eq next)]
  simp only
  refine (bind_of_ok (modify_eq _ _)).trans ?_
  rw [bind_of_ok onward]
  rfl

theorem fillFrom_path {behind : List Char} {value : Value}
    (inside : Cursor.In text ⟨position, '$' :: (behind ++ rest)⟩)
    (read : valueAt table arena ⟨position + 1, behind ++ rest⟩ =
      (value, ⟨position + 1 + byteSize behind, rest⟩))
    (onward : fillFrom table arena text rounds (position + 1 + byteSize behind) =
      .ok others text.utf8ByteSize) :
    fillFrom table arena text (rounds + 1) position =
      .ok ((Piece.path behind value).filled ++ others) text.utf8ByteSize := by
  have next : Cursor.In text ⟨position + 1, behind ++ rest⟩ :=
    inside.reaches (.cons position '$' (behind ++ rest))
  have valued : valueHere table arena text (position + 1) =
      .ok value (position + 1 + byteSize behind) := by
    have same := valueHere_eq table arena next
    rwa [read] at same
  have size : position + 1 + byteSize behind = position + byteSize ('$' :: behind) := by
    rw [byteSize_cons, show Char.utf8Size '$' = 1 from rfl, Nat.add_assoc]
  have written (offset : Nat) :
      slice text position (position + 1 + byteSize behind) offset =
        .ok (String.ofList ('$' :: behind)) offset :=
    @slice_eq text _ ⟨_, rest⟩ _ _ inside rfl size
  unfold fillFrom
  rw [bind_of_ok (remainder_eq inside)]
  simp only
  refine (bind_of_ok (get_eq position)).trans ?_
  rw [bind_of_ok (advance_at position), bind_of_ok valued, Piece.filled]
  by_cases absent : value.isAbsent = true
  · rw [if_pos absent, if_pos absent]
    refine (bind_of_ok (get_eq _)).trans ?_
    rw [bind_of_ok (written _), bind_of_ok onward, String.toList_ofList]
    rfl
  · rw [if_neg absent, if_neg absent, pure_bind, bind_of_ok onward]
    rfl

end

/-- Over bytes the pieces of a running text are filled in one after the other up to its end. -/
theorem fillFrom_eq {pieces : List Piece} {rounds : Nat} (splits : Splits table arena start pieces)
    (inside : start.In text) (enough : start.rest.length < rounds) :
    fillFrom table arena text rounds start.position =
      .ok (pieces.flatMap Piece.filled) text.utf8ByteSize := by
  induction splits generalizing rounds with
  | nil =>
    obtain ⟨rounds, rfl⟩ := Nat.exists_eq_succ_of_ne_zero (Nat.ne_zero_of_lt enough)
    unfold fillFrom
    rw [bind_of_ok (remainder_eq inside), inside.size_eq]
    rfl
  | @backslash position =>
    have enough : 1 < rounds := enough
    have later : Cursor.In text ⟨position + 1, []⟩ := inside.reaches (.cons position '\\' [])
    obtain ⟨rounds, rfl⟩ := Nat.exists_eq_add_of_le' enough
    unfold fillFrom
    rw [bind_of_ok (remainder_eq inside)]
    simp only
    rw [bind_of_ok (advance_at position), bind_of_ok (remainder_eq later)]
    simp only
    unfold fillFrom
    rw [bind_of_ok (remainder_eq later), later.size_eq]
    rfl
  | @character position letter rest pieces noBackslash noDollar _ induction =>
    have later := inside.reaches (.cons position letter rest)
    obtain ⟨rounds, rfl⟩ := Nat.exists_eq_succ_of_ne_zero (Nat.ne_zero_of_lt enough)
    exact fillFrom_character table arena inside noBackslash noDollar
      (induction later (Nat.lt_of_succ_lt_succ enough))
  | @escaped position letter rest _ _ induction =>
    have next := inside.reaches (.cons position '\\' (letter :: rest))
    have later := next.reaches (.cons (position + 1) letter rest)
    obtain ⟨rounds, rfl⟩ := Nat.exists_eq_succ_of_ne_zero (Nat.ne_zero_of_lt enough)
    have fewer : rest.length < rounds := Nat.lt_of_succ_lt (Nat.lt_of_succ_lt_succ enough)
    exact fillFrom_escaped table arena inside (induction later fewer)
  | @path position behind rest value _ read _ induction =>
    have next : Cursor.In text ⟨position + 1, behind ++ rest⟩ :=
      inside.reaches (.cons position '$' (behind ++ rest))
    have later : Cursor.In text ⟨position + 1 + byteSize behind, rest⟩ :=
      next.reaches ⟨behind, rfl, rfl⟩
    obtain ⟨rounds, rfl⟩ := Nat.exists_eq_succ_of_ne_zero (Nat.ne_zero_of_lt enough)
    have fewer : rest.length < rounds := by
      simp only [List.length_cons, List.length_append] at enough
      omega
    exact fillFrom_path table arena inside read (induction later fewer)

theorem fillIn_eq (table : SymbolTable) (arena : Arena) (text : String) :
    fillIn table arena text 0 = .ok (Path.fillIn table arena text) text.utf8ByteSize := by
  rcases exists_splits table arena (.ofText text) with ⟨pieces, splits⟩
  have inside := Cursor.in_ofText text
  have enough : (Cursor.ofText text).rest.length < text.utf8ByteSize + 1 := by
    have length := length_le_byteSize (Cursor.ofText text).rest
    have size : text.utf8ByteSize = 0 + byteSize text.toList := inside.size_eq
    rw [size, Nat.zero_add]
    exact Nat.lt_succ_of_le length
  have filled : fillFrom table arena text (text.utf8ByteSize + 1) 0 = _ :=
    fillFrom_eq table arena splits inside enough
  unfold fillIn
  rw [bind_of_ok filled, splits.fillIn_eq]
  rfl

end

end Bytes

/-! ## Paths move on -/

def Reader.Takes (reader : Reader α) : Prop :=
  ∀ cursor, match reader cursor with
    | .ok _ later | .error _ later => cursor.next.Reaches later

namespace Reader.Takes

theorem bind {reader : Reader α} {next : α → Reader β} (first : reader.Takes)
    (rest : ∀ result, (next result).Advances) : (reader >>= next).Takes := by
  intro cursor
  have one := first cursor
  cases ran : reader cursor with
  | ok result place =>
    rw [ran] at one
    have two := rest result place
    rw [bind_of_ok ran]
    cases ends : next result place with
    | ok _ later | error _ later =>
      rw [ends] at two
      exact one.trans two
  | error failure place =>
    rw [ran] at one
    rw [bind_of_error ran]
    exact one

theorem advance : Reader.advance.Takes :=
  fun cursor => .refl cursor.next

end Reader.Takes

section

variable (table : SymbolTable) (arena : Arena) {deeper : Bool → Reader Target}
  (advances : ∀ nested, (deeper nested).Advances)

include advances

theorem takes_identifier : (identifier table arena deeper).Takes := by
  intro cursor
  unfold identifier
  rw [bind_of_ok (Reader.peek_eq cursor)]
  rcases cursor with ⟨position, _ | ⟨character, rest⟩⟩
  · exact .refl _
  by_cases dollar : character = '$'
  · subst dollar
    refine Reader.Takes.bind .advance (fun _ => .bind .peek fun next => ?_) _
    split
    · exact .bind (advances_insideParens table arena advances) fun _ => .pure _
    · exact .pure _
  · simp only [List.head?_cons]
    by_cases begins : beginsIdentifier character = true
    · simp only [begins, if_true]
      have later := Cursor.reaches_takeWhile continuesIdentifier
        (position + character.utf8Size) rest
      change Cursor.Reaches _ (Cursor.takeWhile continuesIdentifier position (character :: rest)).2
      rw [Cursor.takeWhile, if_pos (continuesIdentifier_of_begins begins)]
      exact later
    · simp only [begins]
      exact .refl _

theorem takes_primary : (primary table arena deeper).Takes := by
  unfold primary
  refine .bind (takes_identifier table arena advances) fun key => ?_
  split
  · exact .pure _
  · exact .bind .get fun place => advances_indices table arena advances _ _

theorem takes_pathOver (nested : Bool) : (pathOver table arena deeper nested).Takes := by
  intro cursor
  unfold pathOver
  rw [bind_of_ok (get_eq cursor)]
  by_cases empty : cursor.rest.isEmpty = true
  · rw [if_pos empty]
    rcases cursor with ⟨position, _ | ⟨character, rest⟩⟩
    · exact .refl _
    · cases empty
  rw [if_neg empty]
  by_cases indirect : beginsIndirection cursor.rest = true
  · rw [if_pos indirect]
    refine Reader.Takes.bind .advance (fun _ => ?_) cursor
    exact .bind (advances nested) fun _ => .readText _ _
  · rw [if_neg indirect]
    refine Reader.Takes.bind (takes_primary table arena advances) (fun node => ?_) cursor
    refine .bind (advances_attrPart table arena advances) fun attr => .bind .get fun place => ?_
    split
    · exact .throw _
    · exact .pure _

end

/-! ## Every place is a boundary -/

namespace Bytes

/-- From an offset the scanner comes to another one with a result or a failure: not before the
start, within the text and between two characters. The reader ends there with the same. -/
structure Ends (text : String) (start : Nat) (scanner : Scanner α) (reader : Reader α)
    (finish : Nat) : Prop where
  boundary : String.Pos.Raw.IsValid text ⟨finish⟩
  forward : start ≤ finish
  within : finish ≤ text.utf8ByteSize
  same : (∃ result, scanner start = .ok result finish ∧
      reader (.atOffset text start) = .ok result (.atOffset text finish)) ∨
    ∃ failure, scanner start = .error (.failed failure) finish ∧
      reader (.atOffset text start) = .error failure (.atOffset text finish)

variable {scanner : Scanner α} {reader : Reader α} {offset finish : Nat}

theorem Follows.ends (follows : Follows text scanner reader) (advances : reader.Advances)
    (boundary : String.Pos.Raw.IsValid text ⟨offset⟩) :
    ∃ finish, Ends text offset scanner reader finish := by
  have inside := Cursor.in_atOffset boundary
  have scanned : scanner offset = _ := follows (.atOffset text offset) inside
  have reaches := advances (.atOffset text offset)
  cases ran : reader (.atOffset text offset) with
  | ok result later =>
    rw [ran] at scanned reaches
    have there := inside.reaches reaches
    refine ⟨later.position, there.isValid, reaches.position_le, there.position_le, .inl ?_⟩
    exact ⟨result, scanned, there.eq_atOffset.symm ▸ ran⟩
  | error failure later =>
    rw [ran] at scanned reaches
    have there := inside.reaches reaches
    refine ⟨later.position, there.isValid, reaches.position_le, there.position_le, .inr ?_⟩
    exact ⟨failure, scanned, there.eq_atOffset.symm ▸ ran⟩

theorem Ends.lt (ends : Ends text offset scanner reader finish) (takes : reader.Takes)
    (boundary : String.Pos.Raw.IsValid text ⟨offset⟩) (left : offset < text.utf8ByteSize) :
    offset < finish := by
  have inside := Cursor.in_atOffset boundary
  have taken := takes (.atOffset text offset)
  have onward : (Cursor.atOffset text offset).next.Reaches (.atOffset text finish) := by
    rcases ends.same with ⟨_, -, ran⟩ | ⟨_, -, ran⟩
    · rwa [ran] at taken
    · rwa [ran] at taken
  have some : (Cursor.atOffset text offset).rest ≠ [] := fun empty =>
    Nat.not_le_of_lt left (inside.size_le_iff.mpr (List.isEmpty_iff.mpr empty))
  exact Nat.lt_of_lt_of_le (Cursor.lt_next some) onward.position_le

/-- From every boundary of a text the readers of paths come to a boundary of it, whether they
succeed or fail, and at every depth: not before the start and not beyond the end. A path takes a
character where one is left. Over bytes no part is asked for that begins or ends inside a
character, and no loop lasts longer than the text; so a running text is filled in up to its end. -/
theorem readers_keep_boundaries (table : SymbolTable) (arena : Arena) (text : String) (start : Nat)
    (boundary : String.Pos.Raw.IsValid text ⟨start⟩) :
    (∀ levels nested, ∃ finish,
      Ends text start (pathOver table arena (below table arena levels) text nested)
        (Path.pathOver table arena (Path.below table arena levels) nested) finish ∧
      (start < text.utf8ByteSize → start < finish)) ∧
    (∀ levels, ∃ finish,
      Ends text start (primary table arena (below table arena levels) text)
        (Path.primary table arena (Path.below table arena levels)) finish) ∧
    (∀ levels, ∃ finish,
      Ends text start (identifier table arena (below table arena levels) text)
        (Path.identifier table arena (Path.below table arena levels)) finish) ∧
    (∀ levels, ∃ finish,
      Ends text start (indexValue table arena (below table arena levels) text)
        (Path.indexValue table arena (Path.below table arena levels)) finish) ∧
    (∃ finish, Ends text start (closeBracket table text) (Path.closeBracket table) finish) ∧
    fillIn table arena text 0 = .ok (table.fillIn arena text) text.utf8ByteSize := by
  have follows (levels : Nat) := follows_below table arena levels
  have advances (levels : Nat) := advances_below table arena levels
  refine ⟨fun levels nested => ?_, fun levels => ?_, fun levels => ?_, fun levels => ?_, ?_, ?_⟩
  · have path := @follows_pathOver text table arena _ _ (follows levels) (advances levels) nested
    rcases path.ends (advances_pathOver table arena (advances levels) nested) boundary with
      ⟨finish, ends⟩
    exact ⟨finish, ends, ends.lt (takes_pathOver table arena (advances levels) nested) boundary⟩
  · exact (follows_primary table arena (follows levels) (advances levels)).ends
      (advances_primary table arena (advances levels)) boundary
  · exact (follows_identifier table arena (follows levels) (advances levels)).ends
      (advances_identifier table arena (advances levels)) boundary
  · exact (follows_indexValue table arena (follows levels) (advances levels)).ends
      (advances_indexValue table arena (advances levels)) boundary
  · exact (follows_closeBracket table).ends (advances_closeBracket table) boundary
  · exact fillIn_eq table arena text

/-- Behind the accented letter stands a path whose parenthesis is not closed. -/
theorem readers_keep_boundaries_accented :
    String.Pos.Raw.IsValid "é$(x" ⟨2⟩ ∧
      ∃ finish, Ends "é$(x" 2 (path SymbolTable.signpost.1 SymbolTable.signpost.2 "é$(x" true)
        (Path.path SymbolTable.signpost.1 SymbolTable.signpost.2 true) finish ∧ 2 < finish := by
  have boundary : String.Pos.Raw.IsValid "é$(x" ⟨2⟩ := by decide +kernel
  have kept :=
    readers_keep_boundaries SymbolTable.signpost.1 SymbolTable.signpost.2 "é$(x" 2 boundary
  rcases kept.1 SymbolTable.signpost.1.limit.max true with ⟨finish, ends, moves⟩
  exact ⟨boundary, finish, ends, moves (by decide +kernel)⟩

end Bytes

end RecordGraph.Path
