import RecordGraph.Proofs.Path.Offsets
import RecordGraph.Proofs.SymbolTable.Setting

/-!
# Attributes that are given apart from their paths

A value that is stored at a path and, apart from it, an attribute is stored under the text of the
attribute as it stands. A reading takes an identifier from the front of the text. Both mean the same
attribute where the text is an identifier as a whole. Any other text that is not computed names an
attribute that is never read by it.
-/

namespace RecordGraph

namespace NameTable

theorem query_of_intern_other {names later : NameTable} {name other : String} {attr : AttrId}
    (given : names.intern name = .ok (attr, later))
    (different : names.fold other ≠ names.fold name) :
    later.query other = names.query other := by
  rcases intern_cases given with ⟨-, rfl⟩ | ⟨-, -, -, rfl⟩
  · rfl
  · change (names.appended (names.fold name)).numbers[names.fold other]? = _
    rw [numbers_appended, if_neg different]
    rfl

theorem fold_of_intern {names later : NameTable} {name : String} {attr : AttrId}
    (given : names.intern name = .ok (attr, later)) (other : String) :
    later.fold other = names.fold other := by
  rcases intern_cases given with ⟨-, rfl⟩ | ⟨-, -, -, rfl⟩ <;> rfl

theorem Inverse.intern {names later : NameTable} (inverse : names.Inverse) {name : String}
    {attr : AttrId} (given : names.intern name = .ok (attr, later)) : later.Inverse := by
  rcases intern_cases given with ⟨-, rfl⟩ | ⟨missing, -, -, rfl⟩
  · exact inverse
  · exact inverse.appended missing

theorem Inverse.fold_eq_of_query {names : NameTable} (inverse : names.Inverse)
    {name other : String} {id : AttrId} (asked : names.query name = some id)
    (askedOther : names.query other = some id) : names.fold name = names.fold other :=
  Option.some.inj <| (inverse.query_eq_some_iff.mp asked).symm.trans
    (inverse.query_eq_some_iff.mp askedOther)

theorem eq_of_fold_eq {names : NameTable} {front whole : String} {rest : List Char}
    (present : front ≠ "") (split : whole.toList = front.toList ++ rest)
    (same : names.fold front = names.fold whole) : front = whole := by
  have wholePresent : whole ≠ "" := by
    rintro rfl
    exact present (String.toList_inj.mp (List.append_eq_nil_iff.mp split.symm).1)
  have lengths : front.toList.length = whole.toList.length := by
    cases folds : names.foldsCase with
    | false =>
      simp only [fold, folds, Bool.false_eq_true, ↓reduceIte] at same
      rw [same]
    | true =>
      simp only [fold, folds, ↓reduceIte, present, wholePresent] at same
      simpa [Text.asciiUpperCase] using congrArg (fun text => text.toList.length) same
  rw [split, List.length_append] at lengths
  have behind : rest = [] := List.length_eq_zero_iff.mp (by omega)
  rw [behind, List.append_nil] at split
  exact String.toList_inj.mp split.symm

end NameTable

namespace Path

def Computed (text : String) : Prop :=
  ['$', '('] <+: text.toList

instance (text : String) : Decidable (Computed text) :=
  inferInstanceAs (Decidable (_ <+: _))

/-- The identifier at the front of a text is a front of it that could stand by itself, or empty. -/
theorem leadingIdentifier_cases (text : List Char) :
    leadingIdentifier text = [] ∨
      IsIdentifier (String.ofList (leadingIdentifier text)) ∧ leadingIdentifier text <+: text := by
  cases text with
  | nil => exact .inl rfl
  | cons first rest =>
    by_cases begins : beginsIdentifier first = true
    · right
      simp only [leadingIdentifier, begins, ↓reduceIte]
      exact ⟨isIdentifier_takeWhile begins, List.takeWhile_prefix _⟩
    · exact .inl (by simp [leadingIdentifier, begins])

theorem identifier_written {table : SymbolTable} {arena : Arena} {deeper : Bool → Reader Target}
    {text : List Char} (written : ¬ ['$', '('] <+: text) (position : Nat) :
    ∃ finish, identifier table arena deeper ⟨position, text⟩ =
      .ok (String.ofList (leadingIdentifier text)) finish := by
  unfold identifier
  rcases text with _ | ⟨first, rest⟩
  · exact ⟨_, bind_of_ok rfl⟩
  · by_cases dollar : first = '$'
    · subst dollar
      have other : rest.head? ≠ some '(' := by
        intro opens
        rcases List.head?_eq_some_iff.mp opens with ⟨behind, rfl⟩
        exact written ⟨behind, rfl⟩
      refine ⟨Cursor.next ⟨position, '$' :: rest⟩, (bind_of_ok rfl).trans ?_⟩
      refine (bind_of_ok rfl).trans ((bind_of_ok rfl).trans ?_)
      exact congrFun (if_neg other) _
    · by_cases begins : beginsIdentifier first = true
      · refine ⟨(Cursor.takeWhile continuesIdentifier position (first :: rest)).2,
          (bind_of_ok rfl).trans ?_⟩
        simp only [List.head?_cons]
        rw [if_pos begins, leadingIdentifier, if_pos begins,
          ← Cursor.takeWhile_fst continuesIdentifier position]
        exact bind_of_ok rfl
      · refine ⟨Cursor.next ⟨position, first :: rest⟩, (bind_of_ok rfl).trans ?_⟩
        simp only [List.head?_cons]
        rw [if_neg begins, leadingIdentifier, if_neg begins]
        exact bind_of_ok rfl

end Path

namespace SymbolTable

open RecordGraph.Path (Plain IsIdentifier Computed leadingIdentifier)

/-! ## The attribute that a text is read as -/

/-- The text is read as the attribute under which a value that comes with it is stored. -/
def ReadsAsStored (table : SymbolTable) (arena : Arena) (text : String) : Prop :=
  table.identifierAt arena text ≠ "" ∧
    arena.names.fold (table.identifierAt arena text) = arena.names.fold text

section

variable {table : SymbolTable} {arena : Arena} {text : String}

theorem identifierAt_of_isIdentifier (isIdentifier : IsIdentifier text) :
    table.identifierAt arena text = text := by
  have read := @Path.run_identifier table arena (Path.inner table arena) [] text isIdentifier
    Text.stops_nil 0
  rw [List.append_nil] at read
  have read : (Path.identifier table arena (Path.inner table arena)).run (.ofText text) =
      .ok text ⟨0 + Path.byteSize text.toList, []⟩ := read
  rw [identifierAt, read]

theorem identifierAt_of_not_computed (written : ¬ Computed text) :
    table.identifierAt arena text = String.ofList (leadingIdentifier text.toList) := by
  rcases @Path.identifier_written table arena (Path.inner table arena) text.toList written 0 with
    ⟨finish, read⟩
  have read : (Path.identifier table arena (Path.inner table arena)).run (.ofText text) =
      .ok (String.ofList (leadingIdentifier text.toList)) finish := read
  rw [identifierAt, read]

theorem readsAsStored_of_isIdentifier (isIdentifier : IsIdentifier text) :
    table.ReadsAsStored arena text := by
  rw [ReadsAsStored, identifierAt_of_isIdentifier isIdentifier]
  exact ⟨isIdentifier.ne_empty, rfl⟩

/-- What is written out is read as stored if it is an identifier as a whole, and only then. -/
theorem readsAsStored_iff (written : ¬ Computed text) :
    table.ReadsAsStored arena text ↔ IsIdentifier text := by
  refine ⟨fun reads => ?_, readsAsStored_of_isIdentifier⟩
  rw [ReadsAsStored, identifierAt_of_not_computed written] at reads
  rcases Path.leadingIdentifier_cases text.toList with empty | ⟨isIdentifier, rest, split⟩
  · rw [empty] at reads
    exact absurd rfl reads.1
  · have whole := NameTable.eq_of_fold_eq reads.1
      (by rw [String.toList_ofList]; exact split.symm) reads.2
    rwa [whole] at isIdentifier

end

/-! ## Storing under an attribute that is given apart -/

/-- What is promised of a value that is stored at a path and, apart from it, an attribute: the path
leads to the node, and nothing but this attribute of this node has changed. A reading of the same
two texts gives the value where the second one is read as it was stored. Where it is not, another
attribute or none is read, and for a text that is written out this gives what it gave before. -/
structure StoresApart (table : SymbolTable) (arena : Arena) (path attr : String) (value : Value)
    (id : NodeId) (key : AttrId) (later : Arena) : Prop where
  find : table.find later path = some id
  named : later.names.query attr = some key
  stored : later.attrById? id key = some value
  others : ∀ node other, ¬ (node = id ∧ other = key) →
    later.attrById? node other = arena.attrById? node other
  read : table.ReadsAsStored later attr → table.queryAttr later path attr = value
  missed : ¬ table.ReadsAsStored later attr → (table.resolveAttr later path attr).attr ≠ some key
  unseen : ¬ Computed attr → ¬ IsIdentifier attr →
    table.queryAttr later path attr = table.queryAttr arena path attr

section

variable {table : SymbolTable} {arena : Arena} {plain : Plain}

/-- Behind a path without an attribute nothing is left, so it is read in either mode. -/
theorem resolveAttr_plain (bare : plain.attr = none) {node : NodeId}
    (found : table.find arena plain.text = some node) (attr : String) :
    table.resolveAttr arena plain.text attr =
      ⟨some node, if table.identifierAt arena attr = "" then none
        else arena.names.query (table.identifierAt arena attr)⟩ := by
  rcases find_eq_some_iff_descends.mp found with ⟨origin, bound, small, reached⟩
  have primed : (Path.primary table arena (Path.inner table arena)).run (.ofText plain.text) =
      .ok (some node) plain.middle :=
    (plain.primary_eq_ok_iff table arena).mpr ⟨origin, bound, small, reached, rfl⟩
  have ended : plain.middle.rest.isEmpty = true := by
    simp [Plain.middle, Path.Cursor.behind, Plain.attrText, bare]
  rw [resolveAttr, primaryAt, primed]
  simp only [ended, Bool.not_true, Bool.and_false, Bool.false_eq_true, ↓reduceIte]

/-- Where a store with `create` has a result, the attribute was given a number, the path led to a
live node, and the value was stored there. -/
theorem store_of_setAttr {path attr : String} {value : Value} {id : NodeId}
    (stored : (table.setAttr arena path attr value true).1 = some id) :
    ∃ key names, arena.names.intern attr = .ok (key, names) ∧
      table.find { arena with names } path = some id ∧ arena.contains id = true ∧
      (table.setAttr arena path attr value true).2 =
        store { arena with names } id key value true := by
  unfold setAttr at stored ⊢
  simp only [↓reduceIte, Bool.true_or] at stored ⊢
  cases given : arena.names.intern attr with
  | error failure =>
    simp only [Path.internAttr, given] at stored
    split at stored <;> simp_all
  | ok interned =>
    rcases interned with ⟨key, names⟩
    simp only [Path.internAttr, given] at stored ⊢
    cases found : table.find { arena with names } path with
    | none => simp [found] at stored
    | some node =>
      simp only [found] at stored ⊢
      cases content : ({ arena with names } : Arena).node? node with
      | none => simp [content] at stored
      | some held =>
        simp only [content, Option.some.injEq] at stored ⊢
        subst stored
        refine ⟨key, names, rfl, found, ?_, rfl⟩
        exact Arena.contains_iff_node?.mpr ⟨held, content⟩

/-- A value is stored under the text of its attribute as it stands, and it is read back if and only
if that text is an identifier, or is computed and gives the name that it is stored under. Nothing
else changes. -/
theorem setAttr_stores (inverse : arena.names.Inverse) (bare : plain.attr = none) {attr : String}
    {value : Value} {id : NodeId}
    (stored : (table.setAttr arena plain.text attr value true).1 = some id) :
    let later := (table.setAttr arena plain.text attr value true).2
    (∃ key, StoresApart table arena plain.text attr value id key later) ∧
      (¬ Computed attr → (table.ReadsAsStored later attr ↔ IsIdentifier attr)) := by
  refine ⟨?_, fun written => readsAsStored_iff written⟩
  rcases store_of_setAttr stored with ⟨key, names, given, found, live, same⟩
  rw [same]
  have namedLater : names.query attr = some key := NameTable.query_of_interned given
  have foundLater : table.find (store { arena with names } id key value true) plain.text =
      some id := by
    rcases find_eq_some_iff_descends.mp found with ⟨origin, bound, small, reached⟩
    refine find_eq_some_iff_descends.mpr ⟨origin, bound, small, ?_⟩
    exact Arena.descend_of_child (fun stands => (child?_store value).trans stands) reached
  have foundBefore : table.find arena plain.text = some id := by
    rcases find_eq_some_iff_descends.mp found with ⟨origin, bound, small, reached⟩
    refine find_eq_some_iff_descends.mpr ⟨origin, bound, small, ?_⟩
    exact @Arena.descend_of_child { arena with names } arena (fun stands => stands) _ _ _ reached
  have kept : (store { arena with names } id key value true).attrById? id key = some value :=
    attrById?_store value live
  have others (node : NodeId) (other : AttrId) (different : ¬ (node = id ∧ other = key)) :
      (store { arena with names } id key value true).attrById? node other =
        arena.attrById? node other :=
    attrById?_store_other value fun same => different ⟨same.1, same.2.symm⟩
  have namesLater : (store { arena with names } id key value true).names = names := rfl
  have target := resolveAttr_plain bare foundLater attr
  generalize store { arena with names } id key value true = later
    at foundLater kept others namesLater target ⊢
  subst namesLater
  have inverseLater := inverse.intern given
  refine ⟨key, foundLater, namedLater, kept, others, fun reads => ?_, fun missed => ?_,
    fun written other => ?_⟩
  · have asked : later.names.query (table.identifierAt later attr) = some key :=
      (congrArg (later.names.numbers[·]?) reads.2).trans namedLater
    rw [queryAttr, target, if_neg reads.1, asked]
    simp only [Path.Target.value, Path.Target.value?, kept, Option.getD_some]
  · rw [target]
    split
    · exact (Option.some_ne_none key).symm
    · rename_i present
      exact fun asked => missed ⟨present, inverseLater.fold_eq_of_query asked namedLater⟩
  · have missed : ¬ table.ReadsAsStored later attr := fun reads =>
      other ((readsAsStored_iff written).mp reads)
    have before := resolveAttr_plain bare foundBefore attr
    rw [identifierAt_of_not_computed written] at target before
    rw [ReadsAsStored, identifierAt_of_not_computed written] at missed
    generalize String.ofList (leadingIdentifier attr.toList) = name at target before missed
    rw [queryAttr, queryAttr, target, before]
    by_cases empty : name = ""
    · rw [if_pos empty, if_pos empty]
      rfl
    · have different : later.names.fold name ≠ later.names.fold attr := fun same =>
        missed ⟨empty, same⟩
      have asked : later.names.query name = arena.names.query name := by
        refine NameTable.query_of_intern_other given ?_
        rwa [← NameTable.fold_of_intern given, ← NameTable.fold_of_intern given]
      rw [if_neg empty, if_neg empty, asked]
      cases number : arena.names.query name with
      | none => rfl
      | some read =>
        have apart : read ≠ key := by
          rintro rfl
          exact different (inverseLater.fold_eq_of_query (asked.trans number) namedLater)
        simp only [Path.Target.value, Path.Target.value?,
          others id read fun same => apart same.2]

end

def lone : Plain where
  key := "a"
  indices := []
  attr := none
  isIdentifier_key := noted.isIdentifier_key
  isDigit_indices := List.forall_mem_nil _
  isIdentifier_attr := Path.isIdentifier_none

/-- A value under an identifier is read back. -/
theorem setAttr_stores_lone :
    keyed.2.names.Inverse ∧ lone.text = "a" ∧
      (keyed.1.setAttr keyed.2 lone.text "my-note" (.text "x") true).1 = some ⟨0, 0⟩ ∧
      keyed.1.queryAttr (keyed.1.setAttr keyed.2 lone.text "my-note" (.text "x") true).2 lone.text
        "my-note" = .text "x" := by
  have inverse : keyed.2.names.Inverse := NameTable.sound_attributes.inverse
  have stored : (keyed.1.setAttr keyed.2 lone.text "my-note" (.text "x") true).1 =
      some ⟨0, 0⟩ := by decide +kernel
  have stores := @setAttr_stores keyed.1 keyed.2 lone inverse rfl "my-note" (.text "x") ⟨0, 0⟩
    stored
  rcases stores.1 with ⟨key, apart⟩
  have written : ¬ Computed "my-note" := by decide
  exact ⟨inverse, rfl, stored,
    apart.read ((stores.2 written).mpr ⟨rfl, List.all_eq_true.mp rfl⟩)⟩

/-- The value is stored under the whole text, of which only the front is read. -/
theorem setAttr_spaced :
    let outcome := keyed.1.setAttr keyed.2 "a" "x y" (.int 5) true
    Workspace.Balanced ⟨keyed.2, [keyed.1]⟩ (fun _ => 0) ∧ outcome.1 = some ⟨0, 0⟩ ∧
      keyed.1.queryAttr outcome.2 "a" "x y" = .absent :=
  ⟨balanced_keyed, by decide +kernel, by decide +kernel⟩

end SymbolTable
end RecordGraph
