import RecordGraph.Proofs.Document.Legibility
import RecordGraph.Proofs.Document.RoundTrip

/-!
# Canonical documents

What is written of a loaded document is a canonical form of it: it loads without warnings, and what
is written of the result is the same text. A number beyond all reals is the one thing that does not
come back as itself. A positive infinity is written as the word `inf`, which is read as a text with
the same written form; but a negative one is written as `-inf`, which is read as the integer zero.
-/

namespace RecordGraph

/-! ## Values read again -/

namespace Value

def reread : Value → Value
  | real (.infinite false) => text "inf"
  | real (.infinite true) => int 0
  | value => value

structure Stable (value : Value) : Prop where
  legible : value.Legible
  bounded : value ≠ .real (.infinite true)

theorem Legible.writable {value : Value} (legible : value.Legible) : value.reread.Writable := by
  cases value with
  | absent | handle => exact legible.elim
  | int | text => trivial
  | real value =>
    cases value with
    | notANumber => exact absurd rfl legible
    | infinite negative => cases negative <;> trivial
    | finite => trivial

theorem Legible.withoutReturns {value : Value} (legible : value.Legible) :
    value.reread.withoutReturns = value.reread := by
  cases value with
  | absent | handle => exact legible.elim
  | int => rfl
  | text content =>
    have kept : content.toList.filter (· != '\r') = content.toList := by
      refine List.filter_eq_self.mpr fun character member => bne_iff_ne.mpr ?_
      rintro rfl
      exact legible member
    simp only [reread, Value.withoutReturns, kept, String.ofList_toList]
  | real value =>
    cases value with
    | notANumber => exact absurd rfl legible
    | infinite negative => cases negative <;> decide +kernel
    | finite => rfl

theorem written_reread {value : Value} (bounded : value ≠ .real (.infinite true)) :
    value.reread.written = value.written := by
  unfold reread
  split
  · decide +kernel
  · exact absurd rfl bounded
  · rfl

end Value

namespace Document

def rereadAttrs (attrs : List (String × Value)) : List (String × Value) :=
  attrs.map fun attr => (attr.1, attr.2.reread)

end Document

def Tree.reread : Tree → Tree
  | node name nodeType attrs children =>
    node name nodeType (Document.rereadAttrs attrs) (children.map reread)

namespace Document

section

variable {texts : Finset String} {name : String} {attrs : List (String × Value)}
  {trees : List Tree}

theorem forall_mem_rereadAttrs {holds : String × Value → Prop} :
    (∀ attr ∈ rereadAttrs attrs, holds attr) ↔ ∀ attr ∈ attrs, holds (attr.1, attr.2.reread) :=
  List.forall_mem_map

theorem KeysAmong.reread (keys : KeysAmong texts attrs) : KeysAmong texts (rereadAttrs attrs) where
  distinct := by
    have same : (rereadAttrs attrs).map (·.1) = attrs.map (·.1) := by
      rw [rereadAttrs, List.map_map]
      rfl
    exact same ▸ keys.distinct
  known := forall_mem_rereadAttrs.mpr keys.known
  folded := forall_mem_rereadAttrs.mpr keys.folded

theorem Holds.reread (holds : Holds Value.Legible name attrs) :
    Holds Value.Writable name (rereadAttrs attrs) where
  isName := holds.isName
  isKey := forall_mem_rereadAttrs.mpr holds.isKey
  values := forall_mem_rereadAttrs.mpr fun attr member => (holds.values attr member).writable

theorem Forest.reread (forest : Forest texts Value.Legible trees) :
    Forest texts Value.Writable (trees.map Tree.reread) := by
  induction forest with
  | nil => exact .nil
  | cons kind keys holds below rest belowInduction restInduction =>
    rw [List.map_cons, Tree.reread]
    exact .cons kind keys.reread holds.reread belowInduction restInduction

theorem Forest.withoutReturns (forest : Forest texts Value.Legible trees) :
    (trees.map Tree.reread).map Tree.withoutReturns = trees.map Tree.reread := by
  induction forest with
  | nil => rfl
  | @cons name attrs children trees kind keys holds below rest belowInduction restInduction =>
    have same : readAttrs (rereadAttrs attrs) = rereadAttrs attrs := by
      rw [readAttrs, rereadAttrs, List.map_map]
      apply List.map_congr_left
      intro attr member
      exact Prod.ext rfl (holds.values attr member).withoutReturns
    rw [List.map_cons, List.map_cons, Tree.reread, Tree.withoutReturns, same, belowInduction,
      restInduction]

theorem infersBase_reread (name : String) (first : Option Value) :
    infersBase name (first.map Value.reread) = infersBase name first := by
  cases first with
  | none => rfl
  | some value =>
    cases value with
    | real value =>
      cases value with
      | infinite negative => cases negative <;> rfl
      | notANumber | finite => rfl
    | absent | int | text | handle => rfl

theorem writePair_reread (layout : Layout) (mark : Nat) (page : Page) {attr : String × Value}
    (bounded : attr.2 ≠ .real (.infinite true)) :
    writePair layout mark page (attr.1, attr.2.reread) = writePair layout mark page attr := by
  simp only [writePair, Value.written_reread bounded]

theorem writeHead_reread (registry : Registry) (layout : Layout) (level : Nat)
    (nodeType : NodeType) (page : Page)
    (bounded : ∀ attr ∈ attrs, attr.2 ≠ .real (.infinite true)) :
    writeHead registry layout level name nodeType (rereadAttrs attrs) page =
      writeHead registry layout level name nodeType attrs page := by
  have mark : typeMark registry name nodeType (rereadAttrs attrs) =
      typeMark registry name nodeType attrs := by
    have first : (rereadAttrs attrs).head?.map (·.2) =
        (attrs.head?.map (·.2)).map Value.reread := by
      rw [rereadAttrs, List.head?_map, Option.map_map, Option.map_map]
      rfl
    simp only [typeMark, first, infersBase_reread]
  have pairs (column : Nat) (page : Page) :
      (rereadAttrs attrs).foldl (writePair layout column) page =
        attrs.foldl (writePair layout column) page := by
    rw [rereadAttrs, List.foldl_map]
    exact List.foldl_ext _ _ _ fun page attr member =>
      writePair_reread layout column page (bounded attr member)
  simp only [writeHead, mark, pairs]

theorem Forest.writeForest_reread (forest : Forest texts Value.Stable trees)
    (registry : Registry) (layout : Layout) (level : Nat) (page : Page) :
    writeForest registry layout level (trees.map Tree.reread) page =
      writeForest registry layout level trees page := by
  induction forest generalizing level page with
  | nil => rfl
  | @cons name attrs children trees kind keys holds below rest belowInduction restInduction =>
    have bounded : ∀ attr ∈ attrs, attr.2 ≠ .real (.infinite true) := fun attr member =>
      (holds.values attr member).bounded
    have inside : writeForest registry layout (level + layout.indent)
        (children.map Tree.reread) =
          writeForest registry layout (level + layout.indent) children := by
      funext page
      exact belowInduction (level + layout.indent) page
    rw [List.map_cons, Tree.reread]
    simp only [writeForest, writeHead_reread registry layout level _ page bounded,
      List.isEmpty_map, inside, restInduction]

end

/-! ## Loaded documents -/

theorem Forest.imp {texts : Finset String} {possible likely : Value → Prop} {trees : List Tree}
    (forest : Forest texts possible trees) (weaker : ∀ value, possible value → likely value) :
    Forest texts likely trees := by
  induction forest with
  | nil => exact .nil
  | cons kind keys holds below rest belowInduction restInduction =>
    exact .cons kind keys
      ⟨holds.isName, holds.isKey, fun attr member => weaker _ (holds.values attr member)⟩
      belowInduction restInduction

theorem legible_of_below {arena : Arena} (legible : arena.Legible) {root id : NodeId} {node : Node}
    (below : arena.Below root id) (found : arena.node? id = some node) :
    node.Legible arena.names := by
  rcases Option.map_eq_some_iff.mp found with ⟨⟨_, owners⟩, live, rfl⟩
  have listed : 0 < arena.occurrences id := by
    cases below with
    | child member => exact Arena.occurrences_pos member
    | deeper _ member => exact Arena.occurrences_pos member
  have count := legible.steady.ownerCount_eq id
  rw [Arena.ownerCount_of_live live] at count
  exact legible.nodes id _ owners live (by omega)

theorem forest_of_legible {arena : Arena} (legible : arena.Legible) {root : NodeId}
    (bounded : ∀ id node, arena.Below root id → arena.node? id = some node →
      ∀ entry ∈ node.entries, entry.2 ≠ .real (.infinite true)) :
    Forest arena.names.texts Value.Stable (arena.unfoldChildren root) := by
  refine forest_unfoldChildren legible.attrs
    (fun id node below found => (legible_of_below legible below found).untagged)
    (fun id node below found => (legible_of_below legible below found).known)
    fun id node below found => ?_
  have holds := (legible_of_below legible below found).holds
  refine ⟨holds.isName, holds.isKey, fun attr member => ⟨holds.values attr member, ?_⟩⟩
  rcases List.mem_map.mp member with ⟨entry, among, rfl⟩
  exact bounded id node below found entry among

theorem legible_blankArena (name : String) : (blankArena name).Legible :=
  Arena.legible_empty.alloc (Node.childArray_ofKind ..) (Node.attrsSound_of_missing rfl)

/-- What is written of an arena in which all has been read loads without warnings, and the same is
written of the result. -/
theorem canonical_of_legible {arena : Arena} (legible : arena.Legible) {root : NodeId}
    (bounded : ∀ id node, arena.Below root id → arena.node? id = some node →
      ∀ entry ∈ node.entries, entry.2 ≠ .real (.infinite true)) (layout : Layout)
    (name : String) :
    ∃ again, load (childrenText arena .standard layout root) (blankArena name) .standard
        (blankRoot name) ⟨true⟩ = ([], again) ∧
      childrenText again .standard layout (blankRoot name) =
        childrenText arena .standard layout root := by
  have stable := forest_of_legible legible bounded
  have forest := stable.imp fun _ value => value.legible
  have text : childrenText arena .standard layout root =
      (writeForest .standard layout 0 ((arena.unfoldChildren root).map Tree.reread)
        .blank).text := by
    rw [childrenText_eq .standard layout legible.attrs.names
      (fun _ _ member => legible.steady.child_live member), stable.writeForest_reread]
  have written := (forest.reread.writes layout 0).forestText
  simp only [← text] at written
  rcases load_forestText_blank written legible.attrs.names.fits_attributes name with
    ⟨again, run, names, unfolds, -⟩
  have legibleAgain := legible_load (legible_blankArena name)
    (childrenText arena .standard layout root) (blankRoot name) ⟨true⟩
  rw [run] at legibleAgain
  refine ⟨again, run, ?_⟩
  rw [childrenText_eq .standard layout names
    (fun _ _ member => legibleAgain.steady.child_live member), unfolds, forest.withoutReturns,
    ← text]

def loadedArena (source name : String) (options : Options) : Arena :=
  (load source (blankArena name) .standard (blankRoot name) options).2

/-- Whatever the text is, if no value of its records is a negative infinity, then what is written of
the records loads without warnings, and the same is written of the result. -/
theorem childrenText_canonical (source name other : String) (options : Options) (layout : Layout)
    (bounded : ∀ id node, (loadedArena source name options).Below (blankRoot name) id →
      (loadedArena source name options).node? id = some node →
      ∀ entry ∈ node.entries, entry.2 ≠ .real (.infinite true)) :
    ∃ again, load (childrenText (loadedArena source name options) .standard layout
        (blankRoot name)) (blankArena other) .standard (blankRoot other) ⟨true⟩ = ([], again) ∧
      childrenText again .standard layout (blankRoot other) =
        childrenText (loadedArena source name options) .standard layout (blankRoot name) :=
  canonical_of_legible (legible_load (legible_blankArena name) source (blankRoot name) options)
    bounded layout other

def ragged : String :=
  "> a=Loop, k=1.50, ,=7\n <b==1e999; -x, \x7b c=none,K=\"one,\\\rtwo\n\td,d=x y,d,"

theorem bounded_ragged (id : NodeId) (node : Node)
    (found : (loadedArena ragged "r" ⟨true⟩).node? id = some node) :
    ∀ entry ∈ node.entries, entry.2 ≠ .real (.infinite true) := by
  have all : ∀ slot ∈ (loadedArena ragged "r" ⟨true⟩).slots,
      ∀ content ∈ slot.live? slot.generation,
        ∀ entry ∈ content.1.entries, entry.2 ≠ .real (.infinite true) := by decide +kernel
  rcases Option.map_eq_some_iff.mp found with ⟨⟨node, owners⟩, live, rfl⟩
  have slot := Arena.live?_eq_some_iff.mp live
  exact all _ (Array.mem_of_getElem? slot) (node, owners) (by simp [Slot.live?])

/-- The text is put in order, and stays so. -/
theorem childrenText_canonical_ragged :
    childrenText (loadedArena ragged "r" ⟨true⟩) .standard .standard (blankRoot "r") =
        "a=iterator,K=1.5,=7\n\x7b\n  b=real,=inf\n  c=string,K=\"one,two\"\n  d=string,D\n\x7d\n" ∧
      ∃ again, load (childrenText (loadedArena ragged "r" ⟨true⟩) .standard .standard
          (blankRoot "r")) (blankArena "s") .standard (blankRoot "s") ⟨true⟩ = ([], again) ∧
        childrenText again .standard .standard (blankRoot "s") =
          childrenText (loadedArena ragged "r" ⟨true⟩) .standard .standard (blankRoot "r") :=
  ⟨by decide +kernel, childrenText_canonical ragged "r" "s" ⟨true⟩ .standard
    fun id node _ found => bounded_ragged id node found⟩

/-- A negative infinity is written as `-inf`, which reads as the integer zero. -/
theorem childrenText_negative_infinity :
    let first := childrenText (loadedArena "x==-1e999" "a" ⟨true⟩) .standard .standard
      (blankRoot "a")
    let second := childrenText (loadedArena first "a" ⟨true⟩) .standard .standard (blankRoot "a")
    first = "x=real,=-inf\n" ∧ second = "x=real,=0\n" := by
  decide +kernel

end Document
end RecordGraph
