import RecordGraph.Proofs.Arena.Ledger
import RecordGraph.Proofs.Document.Growth
import RecordGraph.Proofs.Document.Progress
import RecordGraph.Proofs.Document.Rooted
import RecordGraph.Proofs.Document.Writing

/-!
# What reading gives

Whatever a text is, the records that are read from it have names and keys that a record can be
written with, and their values are integers, reals that are numbers, and texts without carriage
returns. A load stores nothing else.
-/

namespace RecordGraph

open Text
open RecordGraph.Arena (Settles)

/-! ## Values -/

def Value.Legible : Value → Prop
  | int _ => True
  | real value => value ≠ .notANumber
  | text content => '\r' ∉ content.toList
  | _ => False

theorem Binary64.ofQuotient_ne (negative : Bool) (numerator denominator : Nat) :
    ofQuotient negative numerator denominator ≠ .notANumber := by
  unfold ofQuotient
  split <;> simp

theorem Numeral.toBinary64_ne (numeral : Numeral) : numeral.toBinary64 ≠ .notANumber := by
  unfold toBinary64
  split
  · simp
  · split
    · simp
    · exact Binary64.ofQuotient_ne _ _ _

theorem mem_dropWhile_of_fails {test : Char → Bool} {character : Char} {characters : List Char}
    (member : character ∈ characters) (fails : test character = false) :
    character ∈ characters.dropWhile test := by
  rw [← @List.takeWhile_append_dropWhile _ test characters, List.mem_append] at member
  rcases member with front | behind
  · have passes := List.mem_takeWhile_imp front
    rw [fails] at passes
    cases passes
  · exact behind

/-- The marks of a real are visible, no signs, and no letters of the words for special values. -/
theorem marks_cases {mark : Char} (marked : marksReal mark = true) :
    isBlank mark = false ∧ mark.toLower ∈ ['.', 'e'] ∧ mark ∉ ['+', '-'] := by
  unfold marksReal at marked
  split at marked <;> first | decide | cases marked

theorem mem_takeSign {character : Char} {characters : List Char} (member : character ∈ characters)
    (unsigned : character ∉ ['+', '-']) : character ∈ (takeSign characters).2 := by
  unfold takeSign
  split <;> simp_all

theorem Binary64.ofWord?_of_marked {characters : List Char} {mark : Char}
    (member : mark ∈ characters) (marked : marksReal mark = true) :
    ofWord? characters = none := by
  rcases marks_cases marked with ⟨-, lower, unsigned⟩
  have inside := List.mem_map_of_mem (f := Char.toLower) (mem_takeSign member unsigned)
  have word {word : String} (without : word.toList.all (fun letter => letter ∉ ['.', 'e']) = true) :
      String.ofList ((takeSign characters).2.map Char.toLower) ≠ word := by
    rintro rfl
    rw [String.toList_ofList, List.all_eq_true] at without
    have other := without _ inside
    simp_all
  simp only [ofWord?]
  split
  · exact absurd ‹_› (word (by decide))
  · exact absurd ‹_› (word (by decide))
  · exact absurd ‹_› (word (by decide))
  · rfl

theorem Value.legible_ofLiteral {literal : String} (bare : '\r' ∉ literal.toList) :
    (ofLiteral literal).Legible := by
  unfold ofLiteral
  split
  · exact List.not_mem_nil
  · rename_i first rest same
    split
    · rename_i begins
      split
      · rename_i marked
        rcases List.any_eq_true.mp marked with ⟨mark, member, marks⟩
        have among : mark ∈ literal.toList := same ▸ List.mem_cons_of_mem _ member
        have visible := (marks_cases marks).1
        have kept : mark ∈ dropBlanksEnd (dropBlanks literal.toList) := by
          rw [dropBlanksEnd, List.mem_reverse]
          exact mem_dropWhile_of_fails (List.mem_reverse.mpr (mem_dropWhile_of_fails among visible))
            visible
        simp only [Legible, realPrefix, Binary64.ofWord?_of_marked kept marks]
        split
        · exact Numeral.toBinary64_ne _
        · exact Binary64.noConfusion
      · trivial
    · exact bare

namespace Document

/-! ## Texts -/

theorem readText_legible {read : List Char} (clean : '\r' ∉ read) (quoted : Bool) (line : Nat)
    (rest : List Char) : '\r' ∉ (readText quoted line read rest).1 := by
  fun_induction readText quoted line read rest <;> simp_all
  case case8 carriage _ induction => exact induction (Ne.symm carriage)
  case case11 visible induction => exact induction (Ne.symm visible.1)
  case case14 visible _ _ _ induction => exact induction (Ne.symm visible.1)

namespace Scanner

/-! ## Results of scanners -/

def Yields (scanner : Scanner α) (possible : α → Prop) : Prop :=
  ∀ cursor result later, scanner cursor = .ok result later → possible result

variable {scanner : Scanner α} {next : α → Scanner β} {possible : α → Prop} {likely : β → Prop}

theorem yields_any (scanner : Scanner α) : Yields scanner fun _ => True :=
  fun _ _ _ _ => trivial

theorem yields_pure {result : α} (holds : possible result) : Yields (pure result) possible := by
  intro cursor found later ran
  cases ran
  exact holds

theorem yields_throw (problem : Problem) : Yields (throw problem : Scanner α) fun _ => False := by
  intro cursor found later ran
  cases ran

theorem Yields.bind (yields : Yields scanner possible)
    (onward : ∀ result, possible result → Yields (next result) likely) :
    Yields (scanner >>= next) likely := by
  intro cursor found later ran
  cases first : scanner cursor with
  | ok result middle =>
    simp only [Bind.bind, EStateM.bind, first] at ran
    exact onward result (yields cursor result middle first) middle found later ran
  | error problem middle =>
    simp only [Bind.bind, EStateM.bind, first] at ran
    cases ran

theorem yields_takeUntil (stops : List Char) :
    Yields (takeUntil stops) fun taken =>
      ∀ character ∈ taken, stops.contains character = false := by
  intro cursor taken later ran character member
  cases ran
  have passes := List.mem_takeWhile_imp member
  simpa using passes

theorem yields_text : Yields text Value.Legible := by
  intro cursor found later ran
  cases ran
  have clean := readText_legible List.not_mem_nil false cursor.line cursor.rest
  simpa [Value.Legible] using clean

theorem yields_literal : Yields literal Value.Legible := by
  refine (yields_takeUntil _).bind fun taken passes => yields_pure (Value.legible_ofLiteral ?_)
  rw [String.toList_ofList]
  intro carriage
  have passed := passes _ carriage
  revert passed
  decide

theorem yields_value : Yields value Value.Legible := by
  refine (yields_any get).bind fun cursor _ => ?_
  split
  · split
    · exact yields_text
    · exact yields_literal
  · exact yields_literal

end Scanner

/-! ## Records -/

structure LegibleAttr (attr : String × Value) : Prop where
  isKey : IsKey attr.1
  legible : attr.2.Legible

structure Record.Legible (record : Record) : Prop where
  isName : IsName record.name
  attrs : ∀ attr ∈ record.attrs, LegibleAttr attr

namespace Scanner

theorem yields_pair : Yields pair fun found => ∀ attr ∈ found, LegibleAttr attr := by
  refine (yields_any _).bind fun _ _ => (yields_takeUntil _).bind fun key passes =>
    (yields_any _).bind fun _ _ => (yields_any _).bind fun cursor _ => ?_
  have isKey : IsKey (String.ofList key) := by
    rwa [IsKey, String.toList_ofList]
  split
  · refine (yields_any _).bind fun _ _ => (yields_any _).bind fun _ _ =>
      yields_value.bind fun value legible => yields_pure ?_
    rintro _ ⟨⟩
    exact ⟨isKey, legible⟩
  · split
    · exact yields_pure (by simp)
    · refine yields_pure ?_
      rintro _ ⟨⟩
      exact ⟨isKey, List.not_mem_nil⟩

theorem yields_pairs (rounds : List Char) :
    Yields (pairs rounds) fun found => ∀ attr ∈ found.1, LegibleAttr attr := by
  induction rounds with
  | nil => exact yields_pure (List.forall_mem_nil _)
  | cons round rounds induction =>
    refine (yields_any _).bind fun cursor _ => ?_
    split
    · exact yields_pure (List.forall_mem_nil _)
    · refine yields_pair.bind fun first legible => (yields_any _).bind fun _ _ =>
        (yields_any _).bind fun behind _ => ?_
      have alone : ∀ attr ∈ first.toList, LegibleAttr attr := fun attr member =>
        legible attr (Option.mem_toList.mp member)
      split
      · refine (yields_any _).bind fun _ _ => (yields_any _).bind fun _ _ =>
          (yields_any _).bind fun ahead _ => ?_
        split
        · exact yields_pure alone
        · exact induction.bind fun others rest =>
            yields_pure (List.forall_mem_append.mpr ⟨alone, rest⟩)
      · exact yields_pure alone

theorem yields_attributes :
    Yields attributes fun found => ∀ attr ∈ found.1, LegibleAttr attr := by
  refine (yields_any _).bind fun cursor _ => ?_
  split
  · exact (yields_any _).bind fun _ _ => (yields_any _).bind fun _ _ =>
      (yields_any _).bind fun _ _ => yields_pairs _
  · exact (yields_any _).bind fun _ _ => (yields_any _).bind fun _ _ => yields_pairs _

theorem yields_name : Yields name IsName := by
  refine (yields_any _).bind fun _ _ => (yields_takeUntil _).bind fun taken passes => ?_
  have header (begins : ∀ first, taken.head? = some first → beginsName first = true) :
      Yields (do
        skip isGap
        expect headerEnds
        return String.ofList taken) IsName :=
    (yields_any _).bind fun _ _ => (yields_any _).bind fun _ _ => yields_pure
      ⟨by rwa [String.toList_ofList], by rwa [String.toList_ofList]⟩
  split
  · rename_i first begins
    split
    · exact (yields_throw _).bind fun _ impossible => impossible.elim
    · rename_i named
      refine header fun other same => ?_
      rw [begins, Option.some.injEq] at same
      simpa [same] using named
  · rename_i nameless
    refine header fun first same => ?_
    rw [nameless] at same
    cases same

theorem yields_record (options : Options) : Yields (record options) Record.Legible := by
  refine yields_name.bind fun name isName => ?_
  split
  · exact (yields_any _).bind fun _ _ => yields_attributes.bind fun _ legible =>
      yields_pure ⟨isName, legible⟩
  · exact yields_attributes.bind fun _ legible => yields_pure ⟨isName, legible⟩

end Scanner

theorem legible_next? {options : Options} {cursor later : Cursor} {line : Nat} {record : Record}
    (next : Item.next? options cursor = some (.record record, line, later)) : record.Legible := by
  rcases Item.next?_eq_some_iff.mp next with ⟨first, others, -, -, begins⟩
  by_cases ordinary : first ∈ itemSigns
  · simp only [itemSigns, List.mem_cons, List.not_mem_nil, or_false] at ordinary
    rcases ordinary with rfl | rfl | rfl | rfl | rfl | rfl <;> cases begins
  · rw [Item.begun_ordinary options _ ordinary, Item.ofRecord] at begins
    split at begins
    · rename_i found behind ran
      cases begins
      exact Scanner.yields_record options _ _ _ ran
    · cases begins

/-! ## Keys -/

theorem isKey_fold {names : NameTable} {name : String} (isKey : IsKey name) :
    IsKey (writtenKey (names.fold name)) := by
  have upper {character : Char} (passes : keyStops.contains character = false) :
      keyStops.contains character.toUpper = false := by
    cases letter : character.isAlpha with
    | false =>
      have small : ¬ character.isLower = true := by simp_all [Char.isAlpha]
      rwa [Char.toUpper_eq_of_not_isLower small]
    | true =>
      rw [← Char.isAlpha_toUpper_eq_isAlpha] at letter
      rw [← Bool.not_eq_true, List.contains_iff_mem]
      intro stop
      have signs : ∀ sign ∈ keyStops, sign.isAlpha = false := forall_mem_of_all (by decide)
      rw [signs _ stop] at letter
      cases letter
  have folded : IsKey (names.fold name) := by
    unfold NameTable.fold
    split
    · split
      · exact forall_mem_of_all (by decide)
      · intro character member
        rw [asciiUpperCase, String.toList_ofList] at member
        rcases List.mem_map.mp member with ⟨original, among, rfl⟩
        exact upper (isKey original among)
    · exact isKey
  unfold writtenKey
  split
  · exact List.forall_mem_nil _
  · exact folded

end Document

/-! ## Nodes -/

structure Node.Legible (node : Node) (names : NameTable) : Prop where
  untagged : node.nodeType.tag = 0
  known : ∀ entry ∈ node.entries, ∃ key, names.lookup entry.1 = some key
  holds : Document.Holds Value.Legible node.name (node.namedAttrs names)

namespace Node.Legible

variable {node other : Node} {names later : NameTable}

theorem keep (legible : node.Legible names) (keeps : names.Keeps later) : node.Legible later where
  untagged := legible.untagged
  known entry member := (legible.known entry member).imp fun key => keeps.lookup entry.1 key
  holds := by
    have same : node.namedAttrs later = node.namedAttrs names := by
      apply List.map_congr_left
      intro entry member
      rcases legible.known entry member with ⟨key, found⟩
      simp only [found, keeps.lookup _ _ found]
    exact same ▸ legible.holds

theorem gains {ids : List NodeId} (legible : node.Legible names) (gains : node.Gains ids other) :
    other.Legible names := by
  have entries : other.entries = node.entries := by rw [Node.entries, gains.attrs, Node.entries]
  refine ⟨gains.nodeType ▸ legible.untagged, entries ▸ legible.known, ?_⟩
  rw [gains.name, Node.namedAttrs, entries]
  exact legible.holds

end Node.Legible

/-! ## Arenas -/

namespace Arena

structure Legible (arena : Arena) : Prop where
  steady : arena.Steady [] fun _ => 0
  attrs : arena.AttrsSound
  nodes : ∀ id node owners, arena.live? id = some (node, owners) → owners ≠ 0 →
    node.Legible arena.names

theorem legible_empty : Arena.empty.Legible where
  steady := steady_empty
  attrs := attrsSound_empty
  nodes id node owners found := by simp [live?, empty] at found

section

variable {arena : Arena} {names : NameTable}
  (legible : ∀ id node owners, arena.live? id = some (node, owners) → owners ≠ 0 →
    node.Legible names)

include legible

theorem legible_modifyNode (id : NodeId) {change : Node → Node} {ids : List NodeId}
    (gains : ∀ node, Node.Gains node ids (change node)) (other : NodeId) (node : Node)
    (owners : Nat) (found : (arena.modifyNode id change).live? other = some (node, owners))
    (owned : owners ≠ 0) : node.Legible names := by
  rw [live?_modifyNode] at found
  split at found
  · rcases Option.map_eq_some_iff.mp found with ⟨⟨old, count⟩, stood, same⟩
    rw [Prod.mk.injEq] at same
    rcases same with ⟨rfl, rfl⟩
    exact (legible id old count stood owned).gains (gains old)
  · exact legible other node owners found owned

theorem legible_retain {id : NodeId}
    (head : ∀ node owners, arena.live? id = some (node, owners) → node.Legible names)
    (other : NodeId) (node : Node) (owners : Nat)
    (found : (arena.retain id).live? other = some (node, owners)) (owned : owners ≠ 0) :
    node.Legible names := by
  rw [live?_retain] at found
  split at found
  · rcases Option.map_eq_some_iff.mp found with ⟨⟨old, count⟩, stood, same⟩
    rw [Prod.mk.injEq] at same
    rcases same with ⟨rfl, rfl⟩
    exact head old count stood
  · exact legible other node owners found owned

end

namespace Legible

variable {arena : Arena} (legible : arena.Legible)

include legible

theorem names {names : NameTable} (sound : names.Sound) (keeps : arena.names.Keeps names) :
    Arena.Legible { arena with names } where
  steady := (Settles.names arena names _ legible.steady).1
  attrs := ⟨sound, legible.attrs.nodes⟩
  nodes id node owners found owned := (legible.nodes id node owners found owned).keep keeps

theorem ensureChildren (id : NodeId) : (arena.ensureChildren id).Legible where
  steady := (Settles.ensureChildren arena id _ legible.steady).1
  attrs := legible.attrs.modifyNode id fun node sound =>
    sound.congr node.gains_ensureChildren.attrs
  nodes := legible_modifyNode legible.nodes id Node.gains_ensureChildren

theorem pushChild (parent : NodeId) {child : NodeId}
    (head : ∀ node owners, arena.live? child = some (node, owners) → node.Legible arena.names) :
    (arena.pushChild parent child).2.Legible where
  steady := (Settles.pushChild arena parent child _ legible.steady).1
  attrs := legible.attrs.pushChild parent child
  nodes := by
    unfold Arena.pushChild
    split
    · exact legible_modifyNode (legible_retain legible.nodes head) parent fun node =>
        node.gains_push child
    · exact legible.nodes

theorem alloc {node : Node} (childless : node.childArray = #[]) (sound : node.AttrsSound) :
    (arena.alloc node).2.Legible := by
  have placed := placed_alloc legible.steady.wellFormed childless
  refine ⟨(Settles.alloc arena node _ legible.steady).1,
    legible.attrs.alloc legible.steady.wellFormed sound, fun id other owners found owned => ?_⟩
  rw [placed.names]
  by_cases new : id = (arena.alloc node).1
  · rw [new, placed.live?_same] at found
    cases found
    exact absurd rfl owned
  · rw [placed.live?_other new] at found
    exact legible.nodes id other owners found owned

end Legible
end Arena

/-! ## Loads -/

namespace Document

variable {list : AttrList} {names : NameTable}

theorem legible_asked {record : Record} (legible : record.Legible) {before : NameTable}
    (interns : before.Interns record.attrs (list, names)) {request : BuildRequest} {node : Node}
    (asks : Registry.standard.Asks request node) (untyped : request.nodeType = none)
    (named : request.name = record.name)
    (held : request.attrs = none ∨ request.attrs = some list) : node.Legible names := by
  have among : ∀ entry ∈ node.entries, entry ∈ list.entries := by
    intro entry member
    rw [Node.entries, asks.attrs] at member
    rcases held with nothing | same
    · rw [nothing] at member
      cases member
    · rwa [same] at member
  have origin : ∀ entry ∈ node.entries, ∃ attr ∈ record.attrs,
      names.lookup entry.1 = some (before.fold attr.1) ∧ entry.2 = attr.2 :=
    fun entry member => interns.entries entry (among entry member)
  refine ⟨asks.untagged untyped, fun entry member => ?_, asks.name ▸ named ▸ legible.isName,
    fun attr member => ?_, fun attr member => ?_⟩
  · rcases origin entry member with ⟨attr, -, found, -⟩
    exact ⟨_, found⟩
  · rcases List.mem_map.mp member with ⟨entry, inside, rfl⟩
    rcases origin entry inside with ⟨attr, present, found, -⟩
    simp only [found, Option.getD_some]
    exact isKey_fold (legible.attrs attr present).isKey
  · rcases List.mem_map.mp member with ⟨entry, inside, rfl⟩
    rcases origin entry inside with ⟨attr, present, -, same⟩
    simp only [same]
    exact (legible.attrs attr present).legible

theorem legible_addRecord {load : Load} (legible : load.arena.Legible) {record : Record}
    (read : record.Legible) (line : Nat) :
    (load.addRecord .standard line record).arena.Legible := by
  have interns := legible.attrs.names.internAttrs record.attrs
  have interned : (load.arena.internAttrs record.attrs).2.Legible :=
    legible.names interns.later interns.keeps
  have held : (record.request (load.arena.internAttrs record.attrs).1 load.parent).attrs = none ∨
      (record.request (load.arena.internAttrs record.attrs).1 load.parent).attrs =
        some (load.arena.names.internAttrs record.attrs).1 := by
    unfold Record.request
    simp only
    split
    · exact .inl rfl
    · exact .inr rfl
  rcases addRecord_eq .standard load line record with ⟨warnings, same⟩
  rw [same]
  have below : (record.request (load.arena.internAttrs record.attrs).1 load.parent).parent =
      some load.parent := rfl
  rcases Registry.direct_standard.build_below (load.arena.internAttrs record.attrs).2 below with
    same | ⟨node, asks, same⟩
  · simp only [same]
    exact interned
  · have head := legible_asked read interns asks rfl rfl held
    have sound : node.AttrsSound := by
      intro list present
      rw [asks.attrs] at present
      rcases held with nothing | same
      · rw [nothing] at present
        cases present
      · rw [same] at present
        cases present
        exact interns.list
    have placed := Arena.placed_alloc interned.steady.wellFormed asks.childless
    simp only [same]
    apply (interned.alloc asks.childless sound).pushChild
    intro content owners found
    rw [placed.live?_same] at found
    cases found
    rw [placed.names]
    exact head

theorem legible_add {load : Load} (legible : load.arena.Legible) (line : Nat) {item : Item}
    (read : ∀ record, item = .record record → record.Legible) :
    (load.add .standard line item).arena.Legible := by
  cases item with
  | record record => exact legible_addRecord legible (read record rfl) line
  | malformed problem => exact legible
  | opening =>
    simp only [Load.add, Load.openBlock]
    split
    · split
      · exact legible.ensureChildren _
      · exact legible
    · exact legible
  | closing =>
    rcases load with ⟨arena, root, _ | ⟨node, blocks⟩, latest, warnings⟩ <;> exact legible
  | nothing => exact legible

theorem legible_addAll {options : Options} {rounds : Nat} {cursor : Cursor} {load : Load}
    (legible : load.arena.Legible) :
    (load.addAll .standard options rounds cursor).arena.Legible := by
  induction rounds generalizing cursor load with
  | zero => exact legible
  | succ rounds induction =>
    unfold Load.addAll
    split
    · unfold Load.finish
      split <;> exact legible
    · rename_i item line later next
      exact induction (legible_add legible line fun record same => legible_next? (same ▸ next))

theorem legible_load {arena : Arena} (legible : arena.Legible) (source : String)
    (parent : NodeId) (options : Options) :
    (load source arena .standard parent options).2.Legible := by
  unfold load
  split
  · exact legible_addAll (legible.ensureChildren parent)
  · exact legible

end Document
end RecordGraph
