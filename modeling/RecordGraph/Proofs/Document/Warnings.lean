import RecordGraph.Document.Loading

/-!
# What an item is reported for

Each item of a document adds its own warnings to those there are, all of them on the line on which
it begins: a brace that matches nothing, a record that is malformed, that the document ends in or
whose type is not bound.
-/

namespace RecordGraph.Document

inductive Item.Raises (registry : Registry) : Item → Problem → Prop where
  | malformed (problem : Problem) : Raises registry (.malformed problem) problem
  | unmatchedOpen : Raises registry .opening .unmatchedOpen
  | unmatchedClose : Raises registry .closing .unmatchedClose
  | unexpectedEnd {record : Record} : record.unfinished = true →
      Raises registry (.record record) .unexpectedEnd
  | unknownType {record : Record} : record.typeName ≠ "" →
      registry.typeOf? record.typeName = none →
      Raises registry (.record record) (.unknownType record.typeName)

namespace Load

theorem add_warnings (registry : Registry) (load : Load) (item : Item) :
    ∃ (after : Load) (problems : Array Problem),
      (∀ line warnings, Load.add { load with warnings } registry line item =
        { after with warnings := warnings ++ problems.map (Warning.on line) }) ∧
      ∀ problem ∈ problems, item.Raises registry problem := by
  rcases load with ⟨arena, root, blocks, latest, _⟩
  cases item with
  | record record =>
    let parent := blocks.head?.getD root
    let interned := arena.internAttrs record.attrs
    let built := registry.build interned.2
      { name := record.name
        nodeType := none
        typeName := if record.typeName = "" then none else some record.typeName
        attrs := if interned.1.isEmpty then none else some interned.1
        parent := some parent }
    refine ⟨⟨built.2, root, blocks, built.1, #[]⟩,
      (if record.unfinished then #[.unexpectedEnd] else #[]) ++
        (if record.typeName ≠ "" ∧ (registry.typeOf? record.typeName).isNone then
          #[.unknownType record.typeName] else #[]), fun line warnings => ?_, ?_⟩
    · simp only [add, addRecord, warn]
      have twice (first second : Warning) :
          (warnings.push first).push second = warnings ++ #[first, second] :=
        Array.toList_inj.mp (by simp)
      split <;> split <;> simp [built, interned, parent, Load.parent, twice]
    · intro problem member
      rcases Array.mem_append.mp member with member | member
      · split at member
        · rename_i unfinished
          cases Array.mem_singleton.mp member
          exact .unexpectedEnd unfinished
        · cases Array.not_mem_empty _ member
      · split at member
        · rename_i unknown
          cases Array.mem_singleton.mp member
          exact .unknownType unknown.1 (Option.isNone_iff_eq_none.mp unknown.2)
        · cases Array.not_mem_empty _ member
  | malformed problem =>
    exact ⟨⟨arena, root, blocks, none, #[]⟩, #[problem], fun line warnings => by
      simp [add, warn], by simpa using .malformed problem⟩
  | opening =>
    cases latest with
    | none =>
      exact ⟨⟨arena, root, blocks, none, #[]⟩, #[.unmatchedOpen], fun line warnings => by
        simp [add, openBlock, warn], by simpa using .unmatchedOpen⟩
    | some node =>
      by_cases opens : node ≠ blocks.head?.getD root ∧ arena.contains node = true
      · exact ⟨⟨arena.ensureChildren node, root, node :: blocks, some node, #[]⟩, #[],
          fun line warnings => by simp [add, openBlock, Load.parent, opens], by simp⟩
      · exact ⟨⟨arena, root, blocks, some node, #[]⟩, #[.unmatchedOpen], fun line warnings => by
          simp only [add, openBlock, Load.parent, opens, warn, ↓reduceIte]
          simp, by simpa using .unmatchedOpen⟩
  | closing =>
    cases blocks with
    | nil =>
      exact ⟨⟨arena, root, [], latest, #[]⟩, #[.unmatchedClose], fun line warnings => by
        simp [add, closeBlock, warn], by simpa using .unmatchedClose⟩
    | cons node blocks =>
      exact ⟨⟨arena, root, blocks, some node, #[]⟩, #[], fun line warnings => by
        simp [add, closeBlock], by simp⟩
  | nothing =>
    exact ⟨⟨arena, root, blocks, latest, #[]⟩, #[], fun line warnings => by simp [add], by simp⟩

end Load
end RecordGraph.Document
