import RecordGraph.Proofs.Document.Values

/-!
# Written records read back

A record is written as its name, its type or nothing, and its attributes. Each attribute stands
behind a comma, and blanks or a line end may come between the two. The scanner takes the record up
to the line end that follows it.
-/

namespace RecordGraph.Document
open Text

/-! ## Attributes -/

def pairText (key : String) (value : Value) : List Char :=
  key.toList ++ if value.written ≠ "" ∨ key = "" then '=' :: value.written.toList else []

def IsKey (key : String) : Prop :=
  ∀ character ∈ key.toList, keyStops.contains character = false

inductive AttrsText : List (String × Value) → List Char → Prop where
  | nil : AttrsText [] []
  | cons {key : String} {value : Value} {attrs : List (String × Value)} {gap tail : List Char}
      (isKey : IsKey key) (writable : value.Writable)
      (blank : ∀ character ∈ gap, isGapOrLineEnd character = true) (rest : AttrsText attrs tail) :
      AttrsText ((key, value) :: attrs) (',' :: (gap ++ (pairText key value ++ tail)))

def readAttrs (attrs : List (String × Value)) : List (String × Value) :=
  attrs.map fun (key, value) => (key, value.withoutReturns)

theorem AttrsText.ended {attrs : List (String × Value)} {text : List Char}
    (written : AttrsText attrs text) (behind : List Char) : Ended (text ++ '\n' :: behind) := by
  cases written with
  | nil => exact ⟨behind, .inr rfl⟩
  | cons => exact ⟨_, .inl rfl⟩

structure IsName (name : String) : Prop where
  begins : ∀ first, name.toList.head? = some first → beginsName first = true
  characters : ∀ character ∈ name.toList, nameStops.contains character = false

structure IsTypeName (typeName : String) : Prop where
  begins : ∃ first others, typeName.toList = first :: others ∧ isAlphabetic first = true
  characters : ∀ character ∈ typeName.toList, typeStops.contains character = false

inductive TypeText : String → List Char → Prop where
  | omitted : TypeText "" []
  | written {typeName : String} (isTypeName : IsTypeName typeName) :
      TypeText typeName ('=' :: typeName.toList)

theorem TypeText.follows {typeName : String} {text : List Char} (written : TypeText typeName text)
    {rest : List Char} (ended : Ended rest) :
    ∃ first others, text ++ rest = first :: others ∧ first ∈ ['=', ',', '\n'] := by
  cases written with
  | omitted =>
    rcases ended with ⟨others, same | same⟩
    · exact ⟨',', others, same, by simp⟩
    · exact ⟨'\n', others, same, by simp⟩
  | written => exact ⟨'=', _, rfl, by simp⟩

theorem AttrsText.length_le {attrs : List (String × Value)} {text : List Char}
    (written : AttrsText attrs text) : attrs.length ≤ text.length := by
  induction written with
  | nil => exact Nat.le_refl _
  | cons isKey writable blank rest induction =>
    simp only [List.length_cons, List.length_append]
    omega

namespace Scanner

variable {key : String} {value : Value} {rest : List Char}

theorem not_blank_of_passes {run stops : List Char}
    (passes : ∀ character ∈ run, stops.contains character = false)
    (blanks : ∀ character ∈ [' ', '\t', '\r', '\n'], stops.contains character = true) :
    ∀ character ∈ run, isGapOrLineEnd character = false := by
  intro character member
  cases blank : isGapOrLineEnd character with
  | false => rfl
  | true =>
    have among : character ∈ [' ', '\t', '\r', '\n'] := by
      simpa [isGapOrLineEnd, isGap, or_assoc] using blank
    have stop := blanks character among
    rw [passes character member] at stop
    cases stop

theorem not_isGap_of_not_blank {character : Char} (visible : isGapOrLineEnd character = false) :
    isGap character = false :=
  (Bool.or_eq_false_iff.mp (Bool.or_eq_false_iff.mp visible).1).1

theorem not_blank_of_isKey (isKey : IsKey key) :
    ∀ character ∈ key.toList, isGapOrLineEnd character = false :=
  not_blank_of_passes isKey (forall_mem_of_all (by decide))

theorem not_gap_of_isKey (isKey : IsKey key) : ∀ character ∈ key.toList, isGap character = false :=
  fun character member => not_isGap_of_not_blank (not_blank_of_isKey isKey character member)

private theorem run_pair_valued (isKey : IsKey key) (writable : value.Writable)
    (ended : Ended rest) (line : Nat) :
    pair.run ⟨line, key.toList ++ '=' :: (value.written.toList ++ rest)⟩ =
      .ok (some (key, value.withoutReturns)) ⟨line, rest⟩ := by
  have equals : Stops isGap ('=' :: (value.written.toList ++ rest)) := stops_cons.mpr rfl
  have front := Cursor.skip_nothing (stops_append (not_gap_of_isKey isKey) equals) line
  have taken := run_takeUntil rfl isKey ⟨'=', value.written.toList ++ rest, rfl, rfl⟩ line
  have advanced := Cursor.next_cons (show '=' ≠ '\n' by decide) line
    (value.written.toList ++ rest)
  have blank := Cursor.skip_nothing (stops_written writable ended) line
  simp only [pair, EStateM.run_bind, run_skip, front, taken, Cursor.skip_nothing equals line,
    EStateM.run_get, Cursor.isAt_cons, beq_self_eq_true, ↓reduceIte, run_advance, advanced, blank,
    run_value ended line writable, EStateM.run_pure, String.ofList_toList]

private theorem run_pair_bare (isKey : IsKey key) (present : key ≠ "") (ended : Ended rest)
    (line : Nat) :
    pair.run ⟨line, key.toList ++ rest⟩ = .ok (some (key, .text "")) ⟨line, rest⟩ := by
  have stops : Stops isGap rest := ended.stops rfl rfl
  have front := Cursor.skip_nothing (stops_append (not_gap_of_isKey isKey) stops) line
  have taken := run_takeUntil rfl isKey (ended.stands rfl rfl) line
  have noValue : (Cursor.mk line rest).isAt '=' = false := by
    rcases ended with ⟨others, rfl | rfl⟩ <;> rfl
  simp only [pair, EStateM.run_bind, run_skip, front, taken, Cursor.skip_nothing stops line,
    EStateM.run_get, noValue, Bool.false_eq_true, ↓reduceIte, String.ofList_toList, present,
    EStateM.run_pure]

theorem run_pair (isKey : IsKey key) (writable : value.Writable) (ended : Ended rest)
    (line : Nat) :
    pair.run ⟨line, pairText key value ++ rest⟩ =
      .ok (some (key, value.withoutReturns)) ⟨line, rest⟩ := by
  unfold pairText
  by_cases valued : value.written ≠ "" ∨ key = ""
  · rw [if_pos valued, List.append_assoc, List.cons_append]
    exact run_pair_valued isKey writable ended line
  · rw [if_neg valued, List.append_nil]
    simp only [ne_eq, not_or, Decidable.not_not] at valued
    rw [Value.withoutReturns_of_written_empty writable valued.1]
    exact run_pair_bare isKey valued.2 ended line

theorem stops_pairText (isKey : IsKey key) (value : Value) (rest : List Char) :
    ∃ first behind, pairText key value ++ rest = first :: behind ∧
      isGapOrLineEnd first = false := by
  cases characters : key.toList with
  | nil =>
    have empty : key = "" := String.toList_eq_nil_iff.mp characters
    subst empty
    exact ⟨'=', value.written.toList ++ rest, by simp [pairText], rfl⟩
  | cons first others =>
    refine ⟨first, _, by rw [pairText, characters, List.cons_append, List.cons_append], ?_⟩
    exact not_blank_of_isKey isKey first (characters ▸ List.mem_cons_self)

/-- Blanks and line ends in front of an attribute are passed over, and the attribute stays. -/
theorem skip_gap {gap : List Char} (blank : ∀ character ∈ gap, isGapOrLineEnd character = true)
    (isKey : IsKey key) (value : Value) (rest : List Char) (line : Nat) :
    (Cursor.mk line (gap ++ (pairText key value ++ rest))).skip isGapOrLineEnd =
      ⟨line + gap.count '\n', pairText key value ++ rest⟩ := by
  apply Cursor.skip_run blank
  rcases stops_pairText isKey value rest with ⟨first, behind, same, visible⟩
  rw [same]
  exact stops_cons.mpr visible

theorem not_isAtEnd_pairText (isKey : IsKey key) (value : Value) (rest : List Char) (line : Nat) :
    (Cursor.mk line (pairText key value ++ rest)).isAtEnd = false := by
  rcases stops_pairText isKey value rest with ⟨first, behind, same, -⟩
  rw [same, Cursor.isAtEnd_cons]

section

variable (isKey : IsKey key) (writable : value.Writable) (round : Char) (rounds : List Char)
  (line : Nat)

include isKey writable

private theorem run_pairs_last (behind : List Char) :
    (pairs (round :: rounds)).run ⟨line, pairText key value ++ '\n' :: behind⟩ =
      .ok ([(key, value.withoutReturns)], false) ⟨line, '\n' :: behind⟩ := by
  have present := not_isAtEnd_pairText isKey value ('\n' :: behind) line
  have first := run_pair isKey writable ⟨behind, .inr rfl⟩ line
  have feed : Stops isGap ('\n' :: behind) := stops_cons.mpr rfl
  have front := Cursor.skip_nothing feed line
  simp only [pairs, EStateM.run_bind, EStateM.run_get, present, Bool.false_eq_true, ↓reduceIte,
    first, run_skip, front, Cursor.isAt_cons]
  rfl

private theorem run_pairs_next {gap : List Char}
    (blank : ∀ character ∈ gap, isGapOrLineEnd character = true) {other : String}
    (otherKey : IsKey other) {second : Value} {rest : List Char}
    {others : List (String × Value)} {last : Cursor}
    (run : (pairs rounds).run ⟨line + gap.count '\n', pairText other second ++ rest⟩ =
      .ok (others, false) last) :
    (pairs (round :: rounds)).run
        ⟨line, pairText key value ++ ',' :: (gap ++ (pairText other second ++ rest))⟩ =
      .ok ((key, value.withoutReturns) :: others, false) last := by
  have present := not_isAtEnd_pairText isKey value
    (',' :: (gap ++ (pairText other second ++ rest))) line
  have first := run_pair isKey writable
    ⟨gap ++ (pairText other second ++ rest), .inl rfl⟩ line
  have comma : Stops isGap (',' :: (gap ++ (pairText other second ++ rest))) := stops_cons.mpr rfl
  have front := Cursor.skip_nothing comma line
  have advanced := Cursor.next_cons (show ',' ≠ '\n' by decide) line
    (gap ++ (pairText other second ++ rest))
  have continued := not_isAtEnd_pairText otherKey second rest (line + gap.count '\n')
  simp only [pairs, EStateM.run_bind, EStateM.run_get, present, Bool.false_eq_true, ↓reduceIte,
    first, run_skip, front, Cursor.isAt_cons, beq_self_eq_true, run_advance, advanced,
    skip_gap blank otherKey, continued, run, EStateM.run_pure, Option.toList_some,
    List.singleton_append]

end

theorem run_pairs {attrs : List (String × Value)} {tail : List Char}
    (written : AttrsText attrs tail) (isKey : IsKey key) (writable : value.Writable)
    {rounds : List Char}
    (enough : attrs.length < rounds.length) (behind : List Char) (line : Nat) :
    ∃ later, (pairs rounds).run ⟨line, pairText key value ++ (tail ++ '\n' :: behind)⟩ =
      .ok ((key, value.withoutReturns) :: readAttrs attrs, false) ⟨later, '\n' :: behind⟩ := by
  induction written generalizing key value rounds line with
  | nil =>
    rcases rounds with _ | ⟨round, rounds⟩
    · cases enough
    exact ⟨line, run_pairs_last isKey writable round rounds line behind⟩
  | @cons other second attrs gap tail otherKey otherWritable blank rest induction =>
    rcases rounds with _ | ⟨round, rounds⟩
    · cases enough
    rcases induction otherKey otherWritable (Nat.lt_of_succ_lt_succ enough)
      (line + gap.count '\n') with ⟨later, run⟩
    rw [List.cons_append, List.append_assoc, List.append_assoc]
    exact ⟨later, run_pairs_next isKey writable round rounds line blank otherKey run⟩

theorem run_pairs_nothing (rounds behind : List Char) (line : Nat) :
    (pairs rounds).run ⟨line, '\n' :: behind⟩ = .ok ([], false) ⟨line, '\n' :: behind⟩ := by
  have feed : Stops isGap ('\n' :: behind) := stops_cons.mpr rfl
  have front := Cursor.skip_nothing feed line
  have stands : Stands keyStops ('\n' :: behind) := ⟨'\n', behind, rfl, rfl⟩
  have taken := run_takeUntil_nothing rfl stands line
  have nothing : pair.run ⟨line, '\n' :: behind⟩ = .ok none ⟨line, '\n' :: behind⟩ := by
    simp only [pair, EStateM.run_bind, run_skip, front, taken, EStateM.run_get, Cursor.isAt_cons]
    rfl
  cases rounds with
  | nil => rfl
  | cons round rounds =>
    simp only [pairs, EStateM.run_bind, EStateM.run_get, Cursor.isAtEnd_cons, Bool.false_eq_true,
      ↓reduceIte, nothing, run_skip, front, Cursor.isAt_cons]
    rfl

theorem run_attributes {attrs : List (String × Value)} {text : List Char}
    (written : AttrsText attrs text) (behind : List Char) (line : Nat) :
    ∃ later, attributes.run ⟨line, text ++ '\n' :: behind⟩ =
      .ok (readAttrs attrs, false) ⟨later, '\n' :: behind⟩ := by
  cases written with
  | nil =>
    have feed : Stops isGap ('\n' :: behind) := stops_cons.mpr rfl
    have front := Cursor.skip_nothing feed line
    refine ⟨line, ?_⟩
    simp only [attributes, List.nil_append, EStateM.run_bind, EStateM.run_get, Cursor.isAt_cons,
      show ('\n' == ',') = false from rfl, Bool.false_eq_true, ↓reduceIte, run_skip, front,
      run_pairs_nothing]
    rfl
  | @cons key value attrs gap tail isKey writable blank rest =>
    have advanced := Cursor.next_cons (show ',' ≠ '\n' by decide) line
      (gap ++ (pairText key value ++ (tail ++ '\n' :: behind)))
    have enough : attrs.length < (pairText key value ++ (tail ++ '\n' :: behind)).length := by
      have fewer := rest.length_le
      simp only [List.length_append, List.length_cons]
      omega
    rcases run_pairs rest isKey writable enough behind (line + gap.count '\n') with ⟨later, run⟩
    refine ⟨later, ?_⟩
    simp only [attributes, List.cons_append, List.append_assoc, EStateM.run_bind, EStateM.run_get,
      Cursor.isAt_cons, beq_self_eq_true, ↓reduceIte, run_advance, advanced, run_skip,
      skip_gap blank isKey, run]
    rfl

theorem run_name {label : String} (isName : IsName label) {first : Char} {behind : List Char}
    (follows : first ∈ ['=', ',', '\n']) (line : Nat) :
    Scanner.name.run ⟨line, label.toList ++ first :: behind⟩ =
      .ok label ⟨line, first :: behind⟩ := by
  have facts : ∀ first ∈ ['=', ',', '\n'], isGap first = false ∧
      nameStops.contains first = true ∧ headerEnds.contains first = true :=
    forall_mem_of_all (by decide)
  rcases facts first follows with ⟨visible, stop, ends⟩
  have gapless : ∀ character ∈ label.toList, isGap character = false := fun character member =>
    not_isGap_of_not_blank (not_blank_of_passes isName.characters
      (forall_mem_of_all (by decide)) character member)
  have stops : Stops isGap (first :: behind) := stops_cons.mpr visible
  have front := Cursor.skip_nothing (stops_append gapless stops) line
  have back := Cursor.skip_nothing stops line
  have taken := run_takeUntil rfl isName.characters ⟨first, behind, rfl, stop⟩ line
  have expected := run_expect ⟨first, behind, rfl, ends⟩ line
  simp only [Scanner.name, EStateM.run_bind, run_skip, front, taken]
  cases characters : label.toList with
  | nil =>
    simp only [List.head?_nil, EStateM.run_bind, EStateM.run_pure, run_skip, back, expected]
    rw [← characters, String.ofList_toList]
  | cons initial others =>
    have begins := isName.begins initial (by rw [characters]; rfl)
    simp only [List.head?_cons, begins, Bool.not_true, Bool.false_eq_true, ↓reduceIte,
      EStateM.run_bind, EStateM.run_pure, run_skip, back, expected]
    rw [← characters, String.ofList_toList]

theorem run_typeName {typeName : String} {text : List Char} (written : TypeText typeName text)
    {rest : List Char} (ended : Ended rest) (line : Nat) :
    Scanner.typeName.run ⟨line, text ++ rest⟩ = .ok typeName ⟨line, rest⟩ := by
  have stands : Stands typeStops rest := ended.stands rfl rfl
  have ends : Stands headerEnds rest := ended.stands rfl rfl
  have stops : Stops isGap rest := ended.stops rfl rfl
  have back := Cursor.skip_nothing stops line
  have expected := run_expect ends line
  cases written with
  | omitted =>
    have noType : (Cursor.mk line rest).isAt '=' = false := by
      rcases ended with ⟨others, rfl | rfl⟩ <;> rfl
    have taken := run_takeUntil_nothing rfl stands line
    simp only [Scanner.typeName, List.nil_append, EStateM.run_bind, EStateM.run_get, noType,
      Bool.false_eq_true, ↓reduceIte, EStateM.run_pure, taken, List.head?_nil, run_skip, back,
      expected]
  | written isTypeName =>
    have advanced := Cursor.next_cons (show '=' ≠ '\n' by decide) line (typeName.toList ++ rest)
    have gapless : ∀ character ∈ typeName.toList, isGap character = false :=
      fun character member => not_isGap_of_not_blank
        (not_blank_of_passes isTypeName.characters (forall_mem_of_all (by decide)) character
          member)
    have front := Cursor.skip_nothing (stops_append gapless (ended.stops rfl rfl)) line
    have taken := run_takeUntil rfl isTypeName.characters stands line
    rcases isTypeName.begins with ⟨first, others, begins, letter⟩
    have head : typeName.toList.head? = some first := by rw [begins, List.head?_cons]
    simp only [Scanner.typeName, List.cons_append, EStateM.run_bind, EStateM.run_get,
      Cursor.isAt_cons, beq_self_eq_true, ↓reduceIte, run_advance, advanced, run_skip, front,
      EStateM.run_pure, taken, head, letter, Bool.not_true, Bool.false_eq_true, back, expected,
      String.ofList_toList]

end Scanner

/-! ## Records -/

structure RecordText (record : Record) (text : List Char) : Prop where
  isName : IsName record.name
  finished : record.unfinished = false
  parts : ∃ typeText attrsText, text = record.name.toList ++ (typeText ++ attrsText) ∧
    TypeText record.typeName typeText ∧ AttrsText record.attrs attrsText
  present : record.name ≠ "" ∨ record.typeName ≠ ""

def Record.read (record : Record) : Record :=
  { record with attrs := readAttrs record.attrs }

theorem run_record {record : Record} {text : List Char} (written : RecordText record text)
    (behind : List Char) (line : Nat) :
    ∃ later, (Scanner.record ⟨true⟩).run ⟨line, text ++ '\n' :: behind⟩ =
      .ok record.read ⟨later, '\n' :: behind⟩ := by
  rcases written.parts with ⟨typeText, attrsText, same, typeWritten, attrsWritten⟩
  rcases Scanner.run_attributes attrsWritten behind line with ⟨later, attributes⟩
  have typeName := Scanner.run_typeName typeWritten (attrsWritten.ended behind) line
  have follows := typeWritten.follows (attrsWritten.ended behind)
  rcases follows with ⟨first, others, front, follows⟩
  have name := @Scanner.run_name _ written.isName _ others follows line
  rw [← front] at name
  refine ⟨later, ?_⟩
  rw [same, List.append_assoc, List.append_assoc]
  simp only [Scanner.record, EStateM.run_bind, name, ↓reduceIte, typeName, attributes,
    EStateM.run_pure, Record.read, written.finished]

def itemSigns : List Char := ['#', ';', '{', '<', '}', '>']

theorem RecordText.begins {record : Record} {text : List Char} (written : RecordText record text) :
    ∃ first others, text = first :: others ∧ isGapOrLineEnd first = false ∧
      first ∉ itemSigns := by
  rcases record with ⟨label, typeName, attrs, unfinished⟩
  rcases written.parts with ⟨typeText, attrsText, same, typeWritten, -⟩
  cases characters : label.toList with
  | nil =>
    rw [characters, List.nil_append] at same
    cases typeWritten with
    | omitted =>
      have present := written.present
      simp_all
    | written => exact ⟨'=', _, same, by decide, by decide⟩
  | cons first others =>
    rw [characters, List.cons_append] at same
    have member : first ∈ label.toList := by simp [characters]
    have initial := written.isName.begins first (by rw [characters, List.head?_cons])
    have signs : ∀ sign ∈ itemSigns, beginsName sign = false :=
      forall_mem_of_all (by decide +kernel)
    refine ⟨first, _, same,
      Scanner.not_blank_of_passes written.isName.characters (forall_mem_of_all (by decide)) first
        member, ?_⟩
    intro sign
    rw [signs first sign] at initial
    cases initial

theorem next?_other (options : Options) {line : Nat} {first : Char} {others : List Char}
    (ordinary : first ∉ itemSigns) (visible : isGapOrLineEnd first = false) :
    Item.next? options ⟨line, first :: others⟩ =
      some ((Item.ofRecord options ⟨line, first :: others⟩).1, line,
        (Item.ofRecord options ⟨line, first :: others⟩).2) := by
  have stops : Stops isGapOrLineEnd (first :: others) := stops_cons.mpr visible
  have front := Cursor.skip_nothing stops line
  simp only [itemSigns, List.mem_cons, List.not_mem_nil, or_false, not_or] at ordinary
  simp only [Item.next?, front, Cursor.peek_cons]
  split <;> simp_all

theorem next?_record {record : Record} {text : List Char} (written : RecordText record text)
    (behind : List Char) (line : Nat) :
    ∃ later, Item.next? ⟨true⟩ ⟨line, text ++ '\n' :: behind⟩ =
      some (.record record.read, line, ⟨later, '\n' :: behind⟩) := by
  rcases run_record written behind line with ⟨later, run⟩
  rcases written.begins with ⟨first, others, same, visible, ordinary⟩
  refine ⟨later, ?_⟩
  rw [same, List.cons_append] at run ⊢
  rw [next?_other ⟨true⟩ ordinary visible]
  simp only [Item.ofRecord, run]

end RecordGraph.Document
