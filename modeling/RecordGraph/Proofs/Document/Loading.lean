import RecordGraph.Document.Loading
import RecordGraph.Proofs.Document.Growth
import RecordGraph.Proofs.Registry

/-!
# Loading documents of trees

Each record of a document builds a leaf below the node of the innermost open block, and a block adds
children to the leaf in front of it. By induction on the document the children of the innermost open
node grow by nodes that stand for the trees, and there is nothing to warn about.
-/

namespace RecordGraph

namespace Document
open Text

variable {texts : Finset String} {name : String} {kind : Kind} {attrs : List (String × Value)}

/-! ## Records -/

theorem fold_writtenKey {key : String} (folded : NameTable.attributes.fold key = key) :
    NameTable.attributes.fold (writtenKey key) = key := by
  unfold writtenKey
  split
  · rename_i default
    subst default
    decide +kernel
  · exact folded

theorem readAttrs_keys (attrs : List (String × Value)) :
    (readAttrs attrs).map (·.1) = attrs.map (·.1) := by
  rw [readAttrs, List.map_map]
  rfl

theorem internAttrs_headRecord (name : String) (kind : Kind) {names : NameTable}
    (fits : names.Fits texts) (keys : KeysAmong texts attrs) :
    ∃ list later, names.internAttrs (headRecord name kind attrs).read.attrs = (list, later) ∧
      later.Fits texts ∧ names.Keeps later ∧ list.Sound ∧
      later.Denotes list.entries (readAttrs attrs) := by
  have folded : (headRecord name kind attrs).read.attrs.map
      (fun attr => (names.fold attr.1, attr.2)) = readAttrs attrs := by
    simp only [Record.read, headRecord, readAttrs, List.map_map]
    apply List.map_congr_left
    intro attr member
    simp [fits.sound.fold_eq, fold_writtenKey (keys.folded attr member)]
  have foldedKeys : (headRecord name kind attrs).read.attrs.map (fun attr => names.fold attr.1) =
      attrs.map (·.1) := by
    rw [← readAttrs_keys, ← folded, List.map_map]
    rfl
  have known : ∀ attr ∈ (headRecord name kind attrs).read.attrs, names.fold attr.1 ∈ texts := by
    intro attr member
    have among := List.mem_map_of_mem (f := fun attr => names.fold attr.1) member
    rw [foldedKeys] at among
    rcases List.mem_map.mp among with ⟨original, present, same⟩
    exact same ▸ keys.known original present
  rcases fits.internAttrs known (foldedKeys ▸ keys.distinct) with
    ⟨list, later, interned, laterFits, keeps, sound, denotes⟩
  exact ⟨list, later, interned, laterFits, keeps, sound, folded ▸ denotes⟩

def headRequest (name : String) (kind : Kind) (attrs : List (String × Value))
    (held : Option AttrList) (parent : NodeId) : BuildRequest where
  name := name
  nodeType := none
  typeName :=
    if (headRecord name kind attrs).typeName = "" then none
    else some (headRecord name kind attrs).typeName
  attrs := held
  parent := some parent

theorem buildNode_headRequest (name : String) (kind : Kind) {names : NameTable}
    {held : Option AttrList} (arena : Arena) (parent : NodeId)
    (denotes : names.Denotes ((held.map (·.entries)).getD []) (readAttrs attrs)) :
    Registry.standard.buildNode arena (headRequest name kind attrs held parent) =
      Factory.direct.build arena (.ofKind kind) name held := by
  unfold Registry.buildNode headRequest headRecord
  by_cases plain : kind = .base ∧ attrs = [] ∧ name ≠ ""
  · rcases plain with ⟨rfl, rfl, named⟩
    have nothing : held.bind (·.entries.head?) = none := by
      cases held with
      | none => rfl
      | some list =>
        have empty := List.forall₂_nil_right_iff.mp denotes
        simpa using empty
    have inferred : inferKind name held = some .base := by
      rw [inferKind, nothing]
      exact if_neg named
    simp [named, inferred, Registry.direct_standard.buildTyped]
  · rcases Registry.entry?_name kind with ⟨entry, found, same, factory⟩
    simp [plain, Kind.name_ne_empty, found, same, Registry.buildWith,
      Option.isNone_iff_eq_none.mp factory]

theorem typeName_headRecord (name : String) (kind : Kind) (attrs : List (String × Value)) :
    ¬ ((headRecord name kind attrs).typeName ≠ "" ∧
      (Registry.standard.typeOf? (headRecord name kind attrs).typeName).isNone = true) := by
  rintro ⟨present, unbound⟩
  simp only [headRecord] at present unbound
  split at present
  · exact present rfl
  · rename_i typed
    rw [if_neg typed, Registry.typeOf?_name] at unbound
    cases unbound

theorem addRecord_headRecord {load : Load} (wellFormed : load.arena.WellFormed)
    (fits : load.arena.names.Fits texts) (live : load.arena.contains load.parent = true)
    (keys : KeysAmong texts attrs) (name : String) (kind : Kind) :
    ∃ id arena, (∀ line, load.addRecord .standard line (headRecord name kind attrs).read =
        { load with arena, latest := some id }) ∧
      Arena.Grows texts load.parent [id] [.node name (.ofKind kind) (readAttrs attrs) []]
        load.arena arena := by
  rcases load with ⟨⟨slots, free, count, names⟩, root, blocks, latest, warnings⟩
  rcases internAttrs_headRecord name kind fits keys with
    ⟨list, later, interned, laterFits, keeps, sound, denotes⟩
  have typed := typeName_headRecord name kind attrs
  generalize held : (if list.isEmpty then none else some list) = attrList
  have entries : (attrList.map (·.entries)).getD [] = list.entries := by
    subst held
    split
    · rename_i nothing
      exact (sound.entries_of_isEmpty nothing).symm
    · rfl
  rw [← entries] at denotes
  have built := buildNode_headRequest name kind ⟨slots, free, count, later⟩
    (blocks.head?.getD root) denotes
  have childless : Node.childArray { Node.ofKind name kind with attrs := attrList } = #[] := by
    simp only [Node.childArray, Node.ofKind]
    split <;> rfl
  have wellFormedLater : (Arena.mk slots free count later).WellFormed :=
    ⟨wellFormed.free_nodup, wellFormed.mem_free, wellFormed.live_eq⟩
  have grows := Arena.grows_pushChild wellFormedLater laterFits live childless denotes
  refine ⟨_, _, fun line => ?_, ⟨grows.wellFormed, grows.fits, keeps.trans grows.keeps,
    grows.others, grows.parent, grows.shows⟩⟩
  have sameName : (headRecord name kind attrs).read.name = name := rfl
  have sameType : (headRecord name kind attrs).read.typeName =
    (headRecord name kind attrs).typeName := rfl
  have finished : (headRecord name kind attrs).read.unfinished = false := rfl
  simp only [headRequest] at built
  simp only [Load.addRecord, sameName, sameType, finished, Bool.false_eq_true, ↓reduceIte, typed,
    Arena.internAttrs, interned, Registry.build, Load.parent, held, built]
  rfl

/-! ## Items -/

/-- The text is read as what leads from one state of a load to another. -/
def Reads (text : List Char) (load later : Load) : Prop :=
  ∀ line rest, ∃ used lineLater, used ≤ text.length ∧ ∀ rounds,
    load.addAll .standard ⟨true⟩ (rounds + used) ⟨line, text ++ rest⟩ =
      later.addAll .standard ⟨true⟩ rounds ⟨lineLater, rest⟩

theorem Reads.trans {text more : List Char} {load middle later : Load}
    (first : Reads text load middle) (second : Reads more middle later) :
    Reads (text ++ more) load later := by
  intro line rest
  rcases first line (more ++ rest) with ⟨used, lineMiddle, within, run⟩
  rcases second lineMiddle rest with ⟨usedMore, lineLater, withinMore, runMore⟩
  refine ⟨usedMore + used, lineLater, ?_, fun rounds => ?_⟩
  · rw [List.length_append]
    omega
  · rw [← Nat.add_assoc, List.append_assoc, run, runMore]

theorem addAll_blank {registry : Registry} {options : Options} {gap : List Char}
    (blank : ∀ character ∈ gap, isGapOrLineEnd character = true) (load : Load) (rounds line : Nat)
    (rest : List Char) :
    load.addAll registry options rounds ⟨line, gap ++ rest⟩ =
      load.addAll registry options rounds ⟨line + gap.count '\n', rest⟩ := by
  cases rounds with
  | zero => rfl
  | succ rounds => simp only [Load.addAll, Item.next?, Cursor.skip_append blank]

theorem reads_blank {gap : List Char}
    (blank : ∀ character ∈ gap, isGapOrLineEnd character = true) (load : Load) :
    Reads gap load load := fun line rest =>
  ⟨0, _, Nat.zero_le _, fun rounds => addAll_blank blank load rounds line rest⟩

theorem reads_record {record : Record} {text : List Char} (written : RecordText record text)
    {load later : Load} (add : ∀ line, load.addRecord .standard line record.read = later) :
    Reads (text ++ ['\n']) load later := by
  intro line rest
  rcases next?_record written rest line with ⟨lineLater, next⟩
  refine ⟨1, lineLater + 1, by simp, fun rounds => ?_⟩
  have feed : ∀ character ∈ ['\n'], isGapOrLineEnd character = true :=
    forall_mem_of_all (by decide)
  have behind := @addAll_blank .standard ⟨true⟩ _ feed later rounds lineLater rest
  rw [List.append_assoc, List.singleton_append]
  simp only [Load.addAll, next, Load.add, add]
  exact behind

theorem reads_opening {load : Load} {id : NodeId} {leaf : List Tree} {arena : Arena}
    (grows : Arena.Grows texts load.parent [id] leaf load.arena arena)
    (live : load.arena.contains load.parent = true) :
    Reads ['{'] { load with arena, latest := some id }
      { load with arena := arena.ensureChildren id, blocks := id :: load.blocks,
                  latest := some id } := by
  intro line rest
  refine ⟨1, line, Nat.le_refl _, fun rounds => ?_⟩
  have visible : Stops isGapOrLineEnd ('{' :: rest) := stops_cons.mpr rfl
  have advanced := Cursor.next_cons (show '{' ≠ '\n' by decide) line rest
  have allowed : id ≠ Load.parent { load with arena, latest := some id } ∧
      arena.contains id = true := by
    rcases grows.new_head with ⟨new, found⟩
    refine ⟨fun same => ?_, found⟩
    rw [← show id = load.parent from same, new] at live
    cases live
  rw [List.singleton_append]
  simp only [Load.addAll, Item.next?, Cursor.skip_nothing visible line, Cursor.peek_cons, advanced,
    Load.add, Load.openBlock]
  rw [if_pos allowed]

theorem reads_closing (load : Load) (id : NodeId) (blocks : List NodeId) :
    Reads ['}'] { load with blocks := id :: blocks } { load with blocks, latest := some id } := by
  intro line rest
  refine ⟨1, line, Nat.le_refl _, fun rounds => ?_⟩
  have visible : Stops isGapOrLineEnd ('}' :: rest) := stops_cons.mpr rfl
  have advanced := Cursor.next_cons (show '}' ≠ '\n' by decide) line rest
  rw [List.singleton_append]
  simp only [Load.addAll, Item.next?, Cursor.skip_nothing visible line, Cursor.peek_cons, advanced,
    Load.add, Load.closeBlock]

theorem reads_leaf {name : String} {kind : Kind} {gap head : List Char} {load : Load}
    (wellFormed : load.arena.WellFormed) (fits : load.arena.names.Fits texts)
    (live : load.arena.contains load.parent = true)
    (blank : ∀ character ∈ gap, isGapOrLineEnd character = true) (keys : KeysAmong texts attrs)
    (record : RecordText (headRecord name kind attrs) head) :
    ∃ id arena, Reads (gap ++ (head ++ ['\n'])) load { load with arena, latest := some id } ∧
      Arena.Grows texts load.parent [id] [.node name (.ofKind kind) (readAttrs attrs) []]
        load.arena arena := by
  rcases addRecord_headRecord wellFormed fits live keys name kind with ⟨id, arena, add, leaf⟩
  exact ⟨id, arena, (reads_blank blank load).trans (reads_record record add), leaf⟩

/-! ## Documents -/

theorem reads_forest {trees : List Tree} {text : List Char} (forest : ForestText texts trees text)
    {load : Load} (wellFormed : load.arena.WellFormed) (fits : load.arena.names.Fits texts)
    (live : load.arena.contains load.parent = true) :
    ∃ arena latest ids, Reads text load { load with arena, latest } ∧
      Arena.Grows texts load.parent ids (trees.map Tree.withoutReturns) load.arena arena := by
  induction forest generalizing load with
  | nil blank =>
    exact ⟨load.arena, load.latest, [], reads_blank blank load, .refl wellFormed fits _⟩
  | leaf blank keys record rest induction =>
    rcases reads_leaf wellFormed fits live blank keys record with ⟨id, first, reads, leaf⟩
    rcases @induction { load with arena := first, latest := some id } leaf.wellFormed leaf.fits
      (leaf.contains live) with ⟨last, latest, ids, readsRest, grows⟩
    refine ⟨last, latest, id :: ids, ?_, ?_⟩
    · have both := reads.trans readsRest
      simpa only [List.append_assoc, List.singleton_append] using both
    · rw [List.map_cons, Tree.withoutReturns, List.map_nil]
      exact leaf.trans grows live
  | block blank keys record blankFront block rest blockInduction restInduction =>
    rcases reads_leaf wellFormed fits live blank keys record with ⟨id, first, reads, leaf⟩
    have opening := (reads_blank blankFront _).trans (reads_opening leaf live)
    have inBlock : (first.ensureChildren id).contains id = true := by
      rw [Arena.ensureChildren, Arena.contains_modifyNode]
      exact leaf.new_head.2
    -- inside the block its node is the parent, and afterwards the old parent is in place again
    rcases @blockInduction { load with
        arena := first.ensureChildren id, blocks := id :: load.blocks, latest := some id }
      (Arena.wellFormed_updateLive leaf.wellFormed id (by simp)) leaf.fits inBlock with
      ⟨inside, latestInside, children, readsInside, below⟩
    have nested := leaf.nest below live
    rcases @restInduction { load with arena := inside, latest := some id } nested.wellFormed
      nested.fits (nested.contains live) with ⟨last, latest, ids, readsRest, grows⟩
    refine ⟨last, latest, id :: ids, ?_, ?_⟩
    · have closing := reads_closing { load with arena := inside, latest := latestInside } id
        load.blocks
      have whole := reads.trans (opening.trans (readsInside.trans (closing.trans readsRest)))
      simpa only [List.append_assoc, List.singleton_append] using whole
    · rw [List.map_cons, Tree.withoutReturns]
      exact nested.trans grows live

end Document
end RecordGraph
