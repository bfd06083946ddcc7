import RecordGraph.Proofs.Document.Boundaries

/-!
# Parts of a document

The names, types, keys and literals of a record are parts of the text, cut out between two places of
it. They lie between the place at which the record begins and the one at which it ends, and so do
the names and types that a malformed record is reported for.
-/

namespace RecordGraph.Document

def Problem.words : Problem → List String
  | invalidName name => [name]
  | invalidType typeName | unknownType typeName => [typeName]
  | _ => []

namespace Bytes

open RecordGraph.Path (byteSize)
open RecordGraph.Path.Bytes (IsAscii Uniform byteAt endOf)

/-! ## Parts -/

def Part (text : String) (start finish : Nat) (part : String) : Prop :=
  ∃ first last, start ≤ first ∧ first ≤ last ∧ last ≤ finish ∧
    String.Pos.Raw.IsValid text ⟨first⟩ ∧ String.Pos.Raw.IsValid text ⟨last⟩ ∧
    part = String.Pos.Raw.extract text ⟨first⟩ ⟨last⟩

inductive AttrPart (text : String) (start finish : Nat) : String × Value → Prop where
  | bare {key : String} : Part text start finish key → AttrPart text start finish (key, .text "")
  | literal {key word : String} : Part text start finish key → Part text start finish word →
      word.toList.head?.any beginsText = false →
      AttrPart text start finish (key, .ofLiteral word)
  /-- The value is read as a text, since it begins with a byte that begins one. -/
  | text {key characters : String} {place : Nat} : Part text start finish key →
      start ≤ place → place ≤ finish → (byteAt text place).any beginsText = true →
      AttrPart text start finish (key, .text characters)

structure RecordParts (text : String) (start finish : Nat) (record : Record) : Prop where
  name : Part text start finish record.name
  typeName : Part text start finish record.typeName
  attrs : ∀ attr ∈ record.attrs, AttrPart text start finish attr

def ItemParts (text : String) (start finish : Nat) : Item → Prop
  | .record record => RecordParts text start finish record
  | .malformed problem => ∀ word ∈ problem.words, Part text start finish word
  | .opening | .closing | .nothing => True

variable {text : String} {start middle finish lower upper : Nat}

theorem Part.widen {part : String} (cut : Part text start finish part) (before : lower ≤ start)
    (behind : finish ≤ upper) : Part text lower upper part := by
  rcases cut with ⟨first, last, begins, order, ends, valid, validLast, same⟩
  exact ⟨first, last, before.trans begins, order, ends.trans behind, valid, validLast, same⟩

theorem Part.empty (valid : String.Pos.Raw.IsValid text ⟨start⟩) : Part text start start "" := by
  refine ⟨start, start, le_rfl, le_rfl, le_rfl, valid, valid, ?_⟩
  simp [String.Pos.Raw.extract]

theorem AttrPart.widen {attr : String × Value} (parts : AttrPart text start finish attr)
    (before : lower ≤ start) (behind : finish ≤ upper) : AttrPart text lower upper attr := by
  cases parts with
  | bare key => exact .bare (key.widen before behind)
  | literal key word plain =>
    exact .literal (key.widen before behind) (word.widen before behind) plain
  | text key begins ends sign =>
    exact .text (key.widen before behind) (before.trans begins) (ends.trans behind) sign

/-! ## Places ahead -/

structure Ahead (text : String) (start finish : Nat) : Prop where
  order : start ≤ finish
  boundary : String.Pos.Raw.IsValid text ⟨finish⟩

structure Taken (text : String) (start finish : Nat) (part : String) : Prop
    extends Ahead text start finish where
  part : Part text start finish part

structure AttrsTaken (text : String) (start finish : Nat) (attrs : List (String × Value)) : Prop
    extends Ahead text start finish where
  parts : ∀ attr ∈ attrs, AttrPart text start finish attr

structure Names (text : String) (start finish : Nat) (problem : Problem) : Prop
    extends Ahead text start finish where
  parts : ∀ word ∈ problem.words, Part text start finish word

namespace Ahead

theorem refl (valid : String.Pos.Raw.IsValid text ⟨start⟩) : Ahead text start start :=
  ⟨le_rfl, valid⟩

variable (passed : Ahead text start middle)

include passed

theorem trans (onward : Ahead text middle finish) : Ahead text start finish :=
  ⟨passed.order.trans onward.order, onward.boundary⟩

theorem taken {part : String} (taken : Taken text middle finish part) :
    Taken text start finish part :=
  ⟨passed.trans taken.toAhead, taken.part.widen passed.order le_rfl⟩

theorem attrs {attrs : List (String × Value)} (taken : AttrsTaken text middle finish attrs) :
    AttrsTaken text start finish attrs :=
  ⟨passed.trans taken.toAhead, fun attr member =>
    (taken.parts attr member).widen passed.order le_rfl⟩

theorem names {problem : Problem} (names : Names text middle finish problem) :
    Names text start finish problem :=
  ⟨passed.trans names.toAhead, fun word member =>
    (names.parts word member).widen passed.order le_rfl⟩

end Ahead

theorem Taken.onward {part : String} (taken : Taken text start middle part)
    (onward : Ahead text middle finish) : Taken text start finish part :=
  ⟨taken.trans onward, taken.part.widen le_rfl onward.order⟩

theorem AttrsTaken.onward {attrs : List (String × Value)}
    (taken : AttrsTaken text start middle attrs) (onward : Ahead text middle finish) :
    AttrsTaken text start finish attrs :=
  ⟨taken.trans onward, fun attr member => (taken.parts attr member).widen le_rfl onward.order⟩

theorem AttrsTaken.append {attrs others : List (String × Value)}
    (first : AttrsTaken text start finish attrs) (more : AttrsTaken text start finish others) :
    AttrsTaken text start finish (attrs ++ others) := by
  refine ⟨first.toAhead, fun attr member => ?_⟩
  rcases List.mem_append.mp member with member | member
  · exact first.parts attr member
  · exact more.parts attr member

theorem Names.onward {problem : Problem} (names : Names text start middle problem)
    (onward : Ahead text middle finish) : Names text start finish problem :=
  ⟨names.trans onward, fun word member => (names.parts word member).widen le_rfl onward.order⟩

/-! ## Outcomes -/

/-- What holds of the result and of the problem that a scanner may end with. -/
def Ends (outcome : EStateM.Result Stop Nat α) (fits : Nat → α → Prop)
    (wrong : Nat → Problem → Prop) : Prop :=
  match outcome with
  | .ok result finish => fits finish result
  | .error (.failed problem) finish => wrong finish problem
  | .error _ _ => True

section

variable {scanner : Scanner α} {next : α → Scanner β} {fits fitsMore : Nat → α → Prop}
  {fitsNext : Nat → β → Prop} {wrong wrongMore : Nat → Problem → Prop}

theorem Ends.bind (first : Ends (scanner start) fits wrong)
    (rest : ∀ result middle, fits middle result → Ends (next result middle) fitsNext wrong) :
    Ends ((scanner >>= next) start) fitsNext wrong := by
  cases ran : scanner start with
  | ok result middle =>
    rw [ran] at first
    rw [bind_of_ok ran]
    exact rest result middle first
  | error stop middle =>
    rw [ran] at first
    rw [bind_of_error ran]
    cases stop <;> exact first

theorem Ends.mono {outcome : EStateM.Result Stop Nat α} (ends : Ends outcome fits wrong)
    (more : ∀ finish result, fits finish result → fitsMore finish result)
    (worse : ∀ finish problem, wrong finish problem → wrongMore finish problem) :
    Ends outcome fitsMore wrongMore := by
  cases outcome with
  | ok result finish => exact more finish result ends
  | error stop finish =>
    cases stop with
    | failed problem => exact worse finish problem ends
    | torn => trivial
    | endless => trivial

end

/-! ## Moves -/

section

variable {wrong : Nat → Problem → Prop}

theorem ends_moveTo (order : start ≤ finish) :
    Ends (moveTo text finish start) (fun place _ => Ahead text start place) wrong := by
  unfold moveTo
  split
  · rename_i valid
    exact ⟨order, valid⟩
  · trivial

theorem ends_advance (valid : String.Pos.Raw.IsValid text ⟨start⟩) :
    Ends (advance text start) (fun finish _ => Ahead text start finish) wrong := by
  rw [advance, bind_of_ok (get_eq start)]
  split
  · exact ends_moveTo (Nat.le_succ start)
  · exact .refl valid

theorem le_endOf (text : String) (test : Char → Bool) (offset : Nat) :
    offset ≤ endOf text test offset := by
  fun_induction endOf text test offset with
  | case1 offset passes induction => exact Nat.le_of_succ_le induction
  | case2 offset fails => exact le_rfl

theorem ends_passWhile (text : String) (test : Char → Bool) (start : Nat) :
    Ends (passWhile text test start) (fun finish _ => Ahead text start finish) wrong := by
  rw [passWhile, bind_of_ok (get_eq start)]
  exact ends_moveTo (le_endOf text test start)

theorem ends_slice (text : String) (first last start : Nat) :
    Ends (slice text first last start)
      (fun finish part => finish = start ∧ Part text first last part) wrong := by
  unfold slice
  split
  · rename_i fits
    exact ⟨rfl, first, last, le_rfl, fits.1, le_rfl, fits.2.1, fits.2.2, rfl⟩
  · trivial

theorem ends_takeUntil (text : String) (stops : List Char) (start : Nat) :
    Ends (takeUntil text stops start) (Taken text start) wrong := by
  rw [takeUntil, bind_of_ok (get_eq start)]
  refine (ends_passWhile text _ start).bind fun _ middle passed => ?_
  rw [bind_of_ok (get_eq middle)]
  refine (ends_slice text start middle middle).mono (fun finish taken cut => ?_) fun _ _ => id
  rcases cut with ⟨rfl, cut⟩
  exact ⟨passed, cut⟩

/-! ## Attributes -/

theorem ends_literal (valid : String.Pos.Raw.IsValid text ⟨start⟩)
    (plain : (byteAt text start).any beginsText = false) :
    Ends (takeUntil text literalStops start)
      (fun finish word => Taken text start finish word ∧
        word.toList.head?.any beginsText = false) wrong := by
  rcases Stands.exists_of_isValid valid with ⟨cursor, stands⟩
  have taken := @ends_takeUntil wrong text literalStops start
  -- A literal is empty or begins with the character in front of the cursor.
  have head : (cursor.ahead fun character => !literalStops.contains character).head?.any
      beginsText = false := by
    rw [stands.any_byteAt uniform_beginsText] at plain
    rcases cursor with ⟨line, _ | ⟨character, rest⟩⟩
    · rfl
    · rw [Cursor.ahead, List.takeWhile_cons]
      split
      · exact plain
      · rfl
  rw [takeUntil_eq (by simp [literalStops, IsAscii]) stands] at taken ⊢
  refine ⟨taken, ?_⟩
  rw [String.toList_ofList]
  exact head

theorem ends_textFrom (valid : String.Pos.Raw.IsValid text ⟨start⟩) :
    Ends (textFrom text (text.utf8ByteSize + 1) false [] start)
      (fun finish _ => Ahead text start finish) wrong := by
  rcases Stands.exists_of_isValid valid with ⟨cursor, stands⟩
  rcases textFrom_eq false cursor.line [] cursor.rest stands stands.length_lt with
    ⟨finish, ran, there⟩
  have forward := Document.Scanner.reaches_readText false cursor.line [] cursor.rest
  rw [ran]
  exact ⟨stands.le_of_reaches forward there, there.isValid⟩

theorem ends_value {key : String} (keyed : Taken text start middle key) :
    Ends (value text middle)
      (fun finish found => AttrsTaken text start finish [(key, found)]) wrong := by
  rw [value, bind_of_ok (peek_eq text middle)]
  cases sign : (byteAt text middle).any beginsText with
  | true =>
    refine (ends_textFrom keyed.boundary).bind fun characters finish passed => ?_
    refine ⟨keyed.trans passed, List.forall_mem_singleton.mpr ?_⟩
    exact .text (keyed.onward passed).part keyed.order passed.order sign
  | false =>
    refine (ends_literal keyed.boundary sign).bind fun word finish found => ?_
    have taken := keyed.taken found.1
    refine ⟨taken.toAhead, List.forall_mem_singleton.mpr ?_⟩
    exact .literal (keyed.onward found.1.toAhead).part taken.part found.2

theorem ends_pair (text : String) (start : Nat) :
    Ends (pair text start)
      (fun finish found => AttrsTaken text start finish found.toList) wrong := by
  refine (ends_passWhile text _ start).bind fun _ beforeKey gap => ?_
  refine (ends_takeUntil text _ beforeKey).bind fun key afterKey taken => ?_
  refine (ends_passWhile text _ afterKey).bind fun _ behind more => ?_
  have keyed := (gap.taken taken).onward more
  rw [bind_of_ok (peek_eq text behind)]
  split
  · refine (ends_advance keyed.boundary).bind fun _ afterSign sign => ?_
    refine (ends_passWhile text _ afterSign).bind fun _ beforeValue blank => ?_
    exact (ends_value (keyed.onward (sign.trans blank))).bind fun _ _ valued => valued
  · split
    · exact ⟨keyed.toAhead, List.forall_mem_nil _⟩
    · exact ⟨keyed.toAhead, List.forall_mem_singleton.mpr (.bare keyed.part)⟩

theorem ends_pairs (rounds : Nat) (valid : String.Pos.Raw.IsValid text ⟨start⟩) :
    Ends (pairs text rounds start)
      (fun finish found => AttrsTaken text start finish found.1) wrong := by
  induction rounds generalizing start with
  | zero => trivial
  | succ rounds induction =>
    rw [pairs, bind_of_ok (get_eq start)]
    split
    · exact ⟨.refl valid, List.forall_mem_nil _⟩
    · refine (ends_pair text start).bind fun first afterPair found => ?_
      refine (ends_passWhile text _ afterPair).bind fun _ behind gap => ?_
      have paired := found.onward gap
      rw [bind_of_ok (peek_eq text behind)]
      split
      · refine (ends_advance paired.boundary).bind fun _ afterComma comma => ?_
        refine (ends_passWhile text _ afterComma).bind fun _ ahead blank => ?_
        have onward := comma.trans blank
        rw [bind_of_ok (get_eq ahead)]
        split
        · exact paired.onward onward
        · refine (induction onward.boundary).bind fun others finish more => ?_
          have before := paired.onward (onward.trans more.toAhead)
          exact before.append ((paired.trans onward).attrs more)
      · exact paired

theorem ends_attributes (valid : String.Pos.Raw.IsValid text ⟨start⟩) :
    Ends (attributes text start)
      (fun finish found => AttrsTaken text start finish found.1) wrong := by
  have behind {middle : Nat} (passed : Ahead text start middle) :
      Ends (pairs text (text.utf8ByteSize + 1) middle)
        (fun finish found => AttrsTaken text start finish found.1) wrong :=
    (ends_pairs _ passed.boundary).mono (fun _ _ => passed.attrs) fun _ _ => id
  rw [attributes, bind_of_ok (peek_eq text start)]
  split
  · exact (ends_advance valid).bind fun _ _ comma =>
      (ends_passWhile text _ _).bind fun _ _ blank => behind (comma.trans blank)
  · exact (ends_passWhile text _ _).bind fun _ _ gap => behind gap

end

/-! ## Records -/

theorem ends_expect (text : String) (allowed : List Char) (start : Nat) :
    Ends (expect text allowed start) (fun finish _ => finish = start)
      (fun finish problem => finish = start ∧ problem.words = []) := by
  have character (text : String) (start : Nat) {wrong : Nat → Problem → Prop} :
      Ends (character? text start) (fun finish _ => finish = start) wrong := by
    rw [character?, bind_of_ok (get_eq start)]
    exact (ends_slice text start text.utf8ByteSize start).bind fun _ _ cut => cut.1
  rw [expect, bind_of_ok (peek_eq text start)]
  cases byteAt text start with
  | none => rfl
  | some byte =>
    dsimp only
    split
    · refine (character text start).bind fun found _ same => ?_
      cases found with
      | some character => exact ⟨same, rfl⟩
      | none => trivial
    · rfl

theorem ends_headed (text : String) (stops : List Char) (begins : Char → Bool)
    (problem : String → Problem) (names : ∀ taken, (problem taken).words = [taken]) (start : Nat) :
    Ends (headed text stops begins problem start) (Taken text start) (Names text start) := by
  refine (ends_takeUntil text stops start).bind fun word behind taken => ?_
  have checked : Ends
      ((do passWhile text isGap; expect text headerEnds; return word : Scanner String) behind)
      (Taken text start) (Names text start) := by
    refine (ends_passWhile text _ behind).bind fun _ after gap => ?_
    refine .bind ((ends_expect text headerEnds after).mono (fun _ _ => id) ?_) ?_
    · rintro _ wrong ⟨rfl, silent⟩
      refine ⟨taken.trans gap, ?_⟩
      rw [silent]
      exact List.forall_mem_nil _
    · rintro _ _ rfl
      exact taken.onward gap
  cases word.toList.head? with
  | none => exact checked
  | some first =>
    dsimp only
    cases begins first with
    | true => exact checked
    | false =>
      refine ⟨taken.toAhead, ?_⟩
      rw [names, List.forall_mem_singleton]
      exact taken.part

theorem ends_name (text : String) (start : Nat) :
    Ends (name text start) (Taken text start) (Names text start) :=
  (ends_passWhile text _ start).bind fun _ middle gap =>
    (ends_headed text _ _ _ (fun _ => rfl) middle).mono (fun _ _ => gap.taken) fun _ _ => gap.names

theorem ends_typeName (valid : String.Pos.Raw.IsValid text ⟨start⟩) :
    Ends (typeName text start) (Taken text start) (Names text start) := by
  have headed := ends_headed text typeStops Text.isAlphabetic .invalidType fun _ => rfl
  rw [typeName, bind_of_ok (peek_eq text start)]
  split
  · refine (ends_advance valid).bind fun _ afterSign sign => ?_
    refine (ends_passWhile text _ afterSign).bind fun _ middle gap => ?_
    have passed := sign.trans gap
    exact (headed middle).mono (fun _ _ => passed.taken) fun _ _ => passed.names
  · exact headed start

theorem ends_record (text : String) (options : Options) (start : Nat) :
    Ends (record text options start)
      (fun finish found => Ahead text start finish ∧ RecordParts text start finish found)
      (Names text start) := by
  refine (ends_name text start).bind fun name afterName named => ?_
  have attributed {typeName : String} {middle : Nat}
      (typed : Taken text afterName middle typeName) :
      Ends (attributes text middle)
        (fun finish found => Ahead text start finish ∧
          RecordParts text start finish ⟨name, typeName, found.1, found.2⟩) (Names text start) := by
    refine (ends_attributes typed.boundary).mono (fun finish found taken => ?_) fun _ _ => id
    have before := named.onward (typed.trans taken.toAhead)
    have between := named.taken (typed.onward taken.toAhead)
    have behind := (named.trans typed.toAhead).attrs taken
    exact ⟨before.toAhead, before.part, between.part, behind.parts⟩
  split
  · refine ((ends_typeName named.boundary).mono (fun _ _ => id) fun _ _ => named.names).bind
      fun typeName middle typed => ?_
    exact (attributed typed).bind fun _ _ parts => parts
  · have untyped : Taken text afterName afterName "" :=
      ⟨.refl named.boundary, .empty named.boundary⟩
    exact (attributed untyped).bind fun _ _ parts => parts

theorem ends_recover {wrong : Nat → Problem → Prop} (rounds start : Nat) :
    Ends (recover text rounds start) (fun finish _ => Ahead text start finish) wrong := by
  induction rounds generalizing start with
  | zero => trivial
  | succ rounds induction =>
    refine (ends_takeUntil text _ start).bind fun _ middle taken => ?_
    refine (ends_passWhile text _ middle).bind fun _ behind blank => ?_
    have passed := taken.trans blank
    rw [bind_of_ok (peek_eq text behind)]
    split
    · refine (ends_advance passed.boundary).bind fun _ afterComma comma => ?_
      exact (induction afterComma).mono (fun _ _ => (passed.trans comma).trans) fun _ _ => id
    · exact passed

/-! ## Items -/

section

variable {wrong : Nat → Problem → Prop}

theorem ends_ofRecord (text : String) (options : Options) (start : Nat) :
    Ends (ofRecord text options start)
      (fun finish item => Ahead text start finish ∧ ItemParts text start finish item) wrong := by
  have found := ends_record text options start
  unfold ofRecord
  generalize record text options start = outcome at found
  cases outcome with
  | ok record finish => exact found
  | error stop middle =>
    cases stop with
    | torn => trivial
    | endless => trivial
    | failed problem =>
      have names : Names text start middle problem := found
      refine (ends_recover _ middle).bind fun _ finish passed => ?_
      exact ⟨names.trans passed, (names.onward passed).parts⟩

theorem ends_begun (options : Options) (byte : Char) (valid : String.Pos.Raw.IsValid text ⟨start⟩) :
    Ends (begun text options byte start)
      (fun finish item => Ahead text start finish ∧ ItemParts text start finish item) wrong := by
  unfold begun
  split
  · exact (ends_passWhile text _ start).bind fun _ _ passed => ⟨passed, trivial⟩
  · exact (ends_advance valid).bind fun _ _ passed => ⟨passed, trivial⟩
  · exact (ends_advance valid).bind fun _ _ passed => ⟨passed, trivial⟩
  · exact (ends_advance valid).bind fun _ _ passed => ⟨passed, trivial⟩
  · exact (ends_advance valid).bind fun _ _ passed => ⟨passed, trivial⟩
  · exact (ends_advance valid).bind fun _ _ passed => ⟨passed, trivial⟩
  · exact ends_ofRecord text options start

/-- All parts of the item that a turn reads lie between its start and the end of the turn. -/
theorem ends_turn (text : String) (options : Options) (start : Nat) :
    Ends (turn text options start)
      (fun finish found => ∀ place item, found = some (place, item) →
        ItemParts text place finish item) wrong := by
  refine (ends_passWhile text _ start).bind fun _ place passed => ?_
  rw [bind_of_ok (get_eq place), bind_of_ok (peek_eq text place)]
  cases byteAt text place with
  | none => rintro _ _ ⟨⟩
  | some byte =>
    refine (ends_begun options byte passed.boundary).bind fun item finish parts => ?_
    rintro _ _ ⟨⟩
    exact parts.2

end

end Bytes
end RecordGraph.Document
