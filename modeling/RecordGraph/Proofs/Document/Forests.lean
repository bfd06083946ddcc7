import RecordGraph.Document.Writing
import RecordGraph.Proofs.Document.Trees
import RecordGraph.Proofs.Registry

/-!
# The text of a forest

A tree is written like the node that it is the unfolding of: a head with the name, the type and the
attributes, and a block if there are children. If names, keys and values are such that a document
can hold them, the text is a document of the trees.
-/

namespace RecordGraph.Document
open Text

/-! ## Writing trees -/

def infersBase (name : String) : Option Value → Bool
  | none => name ≠ ""
  | some (.text _) | some (.int _) | some (.real _) => false
  | some _ => true

section

variable (registry : Registry) (layout : Layout)

def typeMark (name : String) (nodeType : NodeType) (attrs : List (String × Value)) : String :=
  let typeName := (registry.typeName? nodeType).getD ""
  let plain := nodeType.kind == .base && infersBase name (attrs.head?.map (·.2))
  if typeName = "" || plain then "" else "=" ++ typeName

def writePair (mark : Nat) (page : Page) (attr : String × Value) : Page :=
  let key := writtenKey attr.1
  let text := attr.2.written
  let page := page.write ","
  let tooWide := layout.width < page.column + (key.length + text.length + 1)
  let page := if tooWide && page.column != mark then page.endLine.space mark else page
  let page := page.write key
  if text ≠ "" || key = "" then (page.write "=").write text else page

def writeHead (level : Nat) (name : String) (nodeType : NodeType) (attrs : List (String × Value))
    (page : Page) : Page :=
  let page := ((page.space level).write name).write (typeMark registry name nodeType attrs)
  (attrs.foldl (writePair layout (level + name.length + 1)) page).endLine

def writeBlock (level : Nat) (content : Page → Page) (page : Page) : Page :=
  ((content ((page.space level).write "\x7b").endLine).space level).write "\x7d" |>.endLine

def writeForest : Nat → List Tree → Page → Page
  | _, [], page => page
  | level, .node name nodeType attrs children :: trees, page =>
    let page := writeHead registry layout level name nodeType attrs page
    let page :=
      if children.isEmpty then page
      else writeBlock level (writeForest (level + layout.indent) children) page
    writeForest level trees page

theorem writeForest_append (level : Nat) (trees others : List Tree) (page : Page) :
    writeForest registry layout level (trees ++ others) page =
      writeForest registry layout level others (writeForest registry layout level trees page) := by
  induction trees generalizing page with
  | nil => simp only [List.nil_append, writeForest]
  | cons tree trees induction =>
    rcases tree with ⟨name, nodeType, attrs, children⟩
    simp only [List.cons_append, writeForest, induction]

theorem foldl_writeForest {Key : Type} (level : Nat) (tree : Key → Option Tree) (keys : List Key)
    (page : Page) :
    keys.foldl (fun page key => writeForest registry layout level (tree key).toList page) page =
      writeForest registry layout level (keys.filterMap tree) page := by
  induction keys generalizing page with
  | nil => simp only [List.foldl_nil, List.filterMap_nil, writeForest]
  | cons key keys induction =>
    rw [List.foldl_cons, induction, ← writeForest_append]
    cases present : tree key <;> simp [present]

end

/-! ## Heads -/

theorem blank_spaces (count : Nat) :
    ∀ character ∈ List.replicate count ' ', isGapOrLineEnd character = true := by
  intro character member
  rw [List.eq_of_mem_replicate member]
  rfl

@[simp] theorem toList_space (page : Page) (count : Nat) :
    (page.space count).text.toList = page.text.toList ++ List.replicate count ' ' := by
  simp [Page.space]

theorem isTypeName_name (kind : Kind) : IsTypeName kind.name := by
  cases kind <;> exact ⟨⟨_, _, rfl, by decide +kernel⟩, forall_mem_of_all (by decide)⟩

structure Holds (possible : Value → Prop) (name : String) (attrs : List (String × Value)) :
    Prop where
  isName : IsName name
  isKey : ∀ attr ∈ attrs, IsKey (writtenKey attr.1)
  values : ∀ attr ∈ attrs, possible attr.2

section

variable (layout : Layout) {name : String} {kind : Kind} {attrs : List (String × Value)}

theorem writePair_text (mark : Nat) (page : Page) (attr : String × Value) :
    ∃ gap, (∀ character ∈ gap, isGapOrLineEnd character = true) ∧
      (writePair layout mark page attr).text.toList = page.text.toList ++
        ',' :: (gap ++ pairText (writtenKey attr.1) attr.2) := by
  have valued (page : Page) :
      (if attr.2.written ≠ "" || writtenKey attr.1 = "" then
        ((page.write (writtenKey attr.1)).write "=").write attr.2.written
      else page.write (writtenKey attr.1)).text.toList =
        page.text.toList ++ pairText (writtenKey attr.1) attr.2 := by
    unfold pairText
    by_cases needed : attr.2.written ≠ "" ∨ writtenKey attr.1 = ""
    · simp [needed]
    · simp_all
  unfold writePair
  simp only [valued]
  split
  · refine ⟨'\n' :: List.replicate mark ' ', ?_, by simp⟩
    exact List.forall_mem_cons.mpr ⟨rfl, blank_spaces mark⟩
  · exact ⟨[], List.forall_mem_nil _, by simp⟩

theorem writePairs_text (mark : Nat) (page : Page)
    (keys : ∀ attr ∈ attrs, IsKey (writtenKey attr.1))
    (values : ∀ attr ∈ attrs, attr.2.Writable) :
    ∃ text, (attrs.foldl (writePair layout mark) page).text.toList = page.text.toList ++ text ∧
      AttrsText (attrs.map fun (key, value) => (writtenKey key, value)) text := by
  induction attrs generalizing page with
  | nil => exact ⟨[], (List.append_nil _).symm, .nil⟩
  | cons attr attrs induction =>
    rcases writePair_text layout mark page attr with ⟨gap, blank, first⟩
    rcases induction (writePair layout mark page attr)
      (fun attr member => keys attr (List.mem_cons_of_mem _ member))
      (fun attr member => values attr (List.mem_cons_of_mem _ member)) with ⟨tail, rest, written⟩
    refine ⟨',' :: (gap ++ (pairText (writtenKey attr.1) attr.2 ++ tail)), ?_, ?_⟩
    · rw [List.foldl_cons, rest, first]
      simp
    · exact .cons (keys attr List.mem_cons_self) (values attr List.mem_cons_self) blank written

/-- Among values that can be written, only a named node without attributes is taken to be plain. -/
theorem infersBase_iff (values : ∀ attr ∈ attrs, attr.2.Writable) :
    infersBase name (attrs.head?.map (·.2)) = true ↔ attrs = [] ∧ name ≠ "" := by
  cases attrs with
  | nil => simp [infersBase]
  | cons attr attrs =>
    have first := values attr List.mem_cons_self
    rcases attr with ⟨key, value⟩
    cases value <;> simp_all [infersBase, Value.Writable]

theorem typeMark_text (kind : Kind) (values : ∀ attr ∈ attrs, attr.2.Writable) :
    TypeText (headRecord name kind attrs).typeName
      (typeMark .standard name (.ofKind kind) attrs).toList := by
  have untagged : (NodeType.ofKind kind).kind = kind := rfl
  have plain : (kind == .base && infersBase name (attrs.head?.map (·.2))) = true ↔
      kind = .base ∧ attrs = [] ∧ name ≠ "" := by
    rw [Bool.and_eq_true, beq_iff_eq, infersBase_iff values]
  simp only [typeMark, Registry.typeName?_ofKind, untagged, headRecord, Option.getD_some,
    Kind.name_ne_empty, ← plain]
  cases kind == .base && infersBase name (attrs.head?.map (·.2)) with
  | true => exact .omitted
  | false => simpa using TypeText.written (isTypeName_name kind)

theorem writeHead_text (holds : Holds Value.Writable name attrs) (kind : Kind) (level : Nat)
    (page : Page) :
    ∃ text, (writeHead .standard layout level name (.ofKind kind) attrs page).text.toList =
        page.text.toList ++ (List.replicate level ' ' ++ (text ++ ['\n'])) ∧
      RecordText (headRecord name kind attrs) text := by
  rcases writePairs_text layout (level + name.length + 1)
    (((page.space level).write name).write (typeMark .standard name (.ofKind kind) attrs))
    holds.isKey holds.values with ⟨attrsText, same, written⟩
  refine ⟨name.toList ++ ((typeMark .standard name (.ofKind kind) attrs).toList ++ attrsText), ?_,
    holds.isName, rfl, ⟨_, attrsText, rfl, typeMark_text kind holds.values, written⟩, ?_⟩
  · simp only [writeHead, Page.text_endLine, String.toList_append, same]
    simp
  · simp only [headRecord]
    split
    · rename_i plain
      exact .inl plain.2.2
    · exact .inr (Kind.name_ne_empty kind)

end

/-! ## Forests -/

def Writes (texts : Finset String) (write : Page → Page) (trees : List Tree) : Prop :=
  ∀ page, ∃ text, (write page).text.toList = page.text.toList ++ text ∧
    ∀ {others : List Tree} {tail : List Char}, ForestText texts others tail →
      ForestText texts (trees ++ others) (text ++ tail)

variable {texts : Finset String}

theorem Writes.nothing : Writes texts id [] := fun _ =>
  ⟨[], (List.append_nil _).symm, id⟩

theorem Writes.andThen {first second : Page → Page} {trees others : List Tree}
    (left : Writes texts first trees) (right : Writes texts second others) :
    Writes texts (fun page => second (first page)) (trees ++ others) := by
  intro page
  rcases left page with ⟨text, same, written⟩
  rcases right (first page) with ⟨more, sameMore, writtenMore⟩
  refine ⟨text ++ more, by rw [sameMore, same, List.append_assoc], fun rest => ?_⟩
  rw [List.append_assoc, List.append_assoc]
  exact written (writtenMore rest)

theorem Writes.forestText {write : Page → Page} {trees : List Tree}
    (writes : Writes texts write trees) : ForestText texts trees (write .blank).text.toList := by
  rcases writes .blank with ⟨text, same, written⟩
  have forest := written (.nil (List.forall_mem_nil _))
  rw [List.append_nil, List.append_nil] at forest
  rw [same]
  exact forest

section

variable (layout : Layout) {name : String} {attrs : List (String × Value)}
  (keys : KeysAmong texts attrs) (holds : Holds Value.Writable name attrs)

include keys holds

theorem writes_leaf (kind : Kind) (level : Nat) :
    Writes texts (writeHead .standard layout level name (.ofKind kind) attrs)
      [.node name (.ofKind kind) attrs []] := by
  intro page
  rcases writeHead_text layout holds kind level page with ⟨head, same, record⟩
  refine ⟨_, same, fun rest => ?_⟩
  rw [List.append_assoc, List.append_assoc]
  exact .leaf (blank_spaces level) keys record rest

theorem writes_block (kind : Kind) (level : Nat) {content : Page → Page} {children : List Tree}
    (inside : Writes texts content children) :
    Writes texts
      (fun page =>
        writeBlock level content (writeHead .standard layout level name (.ofKind kind) attrs page))
      [.node name (.ofKind kind) attrs children] := by
  intro page
  rcases writeHead_text layout holds kind level page with ⟨head, same, record⟩
  rcases inside ((((writeHead .standard layout level name (.ofKind kind) attrs page).space
    level).write "\x7b").endLine) with ⟨text, sameInside, block⟩
  have closing := block (.nil (blank_spaces level))
  rw [List.append_nil] at closing
  have feed : ∀ character ∈ ['\n'], isGapOrLineEnd character = true :=
    forall_mem_of_all (by decide)
  refine ⟨List.replicate level ' ' ++ (head ++ '\n' :: (List.replicate level ' ' ++
    '{' :: (('\n' :: (text ++ List.replicate level ' ')) ++ '}' :: ['\n']))), ?_, fun rest => ?_⟩
  · simp [writeBlock, sameInside, same]
  · have written := ForestText.block (blank_spaces level) keys record (blank_spaces level)
      (closing.indent feed) (rest.indent feed)
    simpa using written

end

inductive Forest (texts : Finset String) (possible : Value → Prop) : List Tree → Prop where
  | nil : Forest texts possible []
  | cons {name : String} {attrs : List (String × Value)} {children trees : List Tree}
      (kind : Kind) (keys : KeysAmong texts attrs) (holds : Holds possible name attrs)
      (below : Forest texts possible children) (rest : Forest texts possible trees) :
      Forest texts possible (.node name (.ofKind kind) attrs children :: trees)

theorem Forest.append {possible : Value → Prop} {trees others : List Tree}
    (forest : Forest texts possible trees) (more : Forest texts possible others) :
    Forest texts possible (trees ++ others) := by
  induction forest with
  | nil => exact more
  | cons kind keys holds below _ _ induction => exact .cons kind keys holds below induction

theorem Forest.filterMap {possible : Value → Prop} {Key : Type} {tree : Key → Option Tree}
    {keys : List Key} (forests : ∀ key ∈ keys, Forest texts possible (tree key).toList) :
    Forest texts possible (keys.filterMap tree) := by
  induction keys with
  | nil => exact .nil
  | cons key keys induction =>
    have first := forests key List.mem_cons_self
    have rest := induction fun other member => forests other (List.mem_cons_of_mem _ member)
    have both := first.append rest
    cases present : tree key <;> simpa [present] using both

theorem Forest.writes {trees : List Tree} (forest : Forest texts Value.Writable trees)
    (layout : Layout) (level : Nat) :
    Writes texts (fun page => writeForest .standard layout level trees page) trees := by
  induction forest generalizing level with
  | nil =>
    simp only [writeForest]
    exact .nothing
  | @cons name attrs children trees kind keys holds below rest belowInduction restInduction =>
    simp only [writeForest]
    cases empty : children.isEmpty with
    | true =>
      have leaf := writes_leaf layout keys holds kind level
      rw [List.isEmpty_iff.mp empty]
      simpa using leaf.andThen (restInduction level)
    | false =>
      have block := writes_block layout keys holds kind level
        (belowInduction (level + layout.indent))
      simpa [empty] using block.andThen (restInduction level)

end RecordGraph.Document
