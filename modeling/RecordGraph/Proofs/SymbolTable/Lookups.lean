import RecordGraph.Proofs.SymbolTable.Refusal

/-!
# Paths that are only looked up

Without leave to create anything, a path leads to a node by the same steps whether it is read, a
value is stored at it, or it is gone over as by a path that makes way. The last of these stops early
at a key that is not bound and goes on from a missing child, and it changes nothing on any way out.
-/

namespace RecordGraph

namespace Path

open Builder (Stays)
open SymbolTable (destinationAttr)

section

variable {table : SymbolTable} {arena : Arena} {start : Cursor}

theorem stays_buildIndices_of_lookup {origin : NodeId} :
    (buildIndices table false none origin).Stays
      (fun reached finish =>
        indices table arena (inner table arena) start.rest (some origin) start = .ok reached finish)
      ⟨start, arena⟩ := by
  unfold buildIndices
  apply Stays.get
  refine (stays_followIndices fun creating => by cases creating).bind ?_
  rintro ⟨node, last⟩ finish followed
  exact .pure followed

theorem stays_buildPrimary_of_lookup :
    (buildPrimary table false none).Stays
      (fun reached finish => reached.2 = none ∧ ∀ node, reached.1 = some node →
        primary table arena (inner table arena) start = .ok (some node) finish)
      ⟨start, arena⟩ := by
  unfold buildPrimary
  refine (Stays.look _).bind fun key place read => ?_
  split
  · exact .pure ⟨rfl, nofun⟩
  · rename_i named
    cases bound : table.lookup key with
    | none => exact .pure ⟨rfl, nofun⟩
    | some origin =>
      refine stays_buildIndices_of_lookup.bind fun reached finish followed => .pure ⟨rfl, ?_⟩
      rintro node rfl
      refine bind_eq_ok_iff.mpr ⟨_, _, read, ?_⟩
      rw [if_neg named, bound]
      exact bind_eq_ok_iff.mpr ⟨_, _, rfl, followed⟩

theorem stays_buildAttr_of_lookup :
    (buildAttr table false).Stays
      (fun _ finish => ∃ name, attrName table arena start = .ok name finish) ⟨start, arena⟩ := by
  unfold buildAttr
  apply Stays.get
  split
  · rename_i point
    refine (Stays.look _).bind fun _ opened advanced => ?_
    cases advanced
    refine (Stays.look _).bind fun text finish read => ?_
    have named : ∃ name, attrName table arena start = .ok name finish :=
      ⟨some text, (attrName_of_point point).mpr ⟨text, read, rfl⟩⟩
    split
    · exact .pure named
    · exact .get (.pure named)
  · rename_i other
    exact .pure ⟨none, attrName_of_other other⟩

theorem stays_buildEnd_of_lookup :
    (buildEnd table false).Stays
      (fun _ finish => (∃ name, attrName table arena start = .ok name finish) ∧
        (table.robust = true ∨ finish.rest = [])) ⟨start, arena⟩ := by
  unfold buildEnd
  refine stays_buildAttr_of_lookup.bind fun _ finish named => .get ?_
  dsimp only
  split
  · exact .throw _
  · rename_i accepted
    exact .pure ⟨named, refused_eq_false_iff.mp (Bool.eq_false_iff.mpr accepted)⟩

/-- A path that may not create anything gives only nodes that it names, and asks for no binding. -/
theorem stays_buildPath_of_lookup :
    (buildPath table false none).Stays
      (fun target _ => target.2 = none ∧ ∀ node, target.1.node = some node →
        ∃ name, ReadsAs table arena start node name) ⟨start, arena⟩ := by
  unfold buildPath
  refine stays_buildPrimary_of_lookup.bind fun reached place primed => ?_
  rcases reached with ⟨reached, pending⟩
  rcases primed with ⟨rfl, primed⟩
  refine (stays_buildEnd_of_lookup.onFailure rfl).bind fun attr finish ended => .pure ⟨rfl, ?_⟩
  intro node found
  rcases ended with ⟨⟨name, named⟩, accepted⟩
  exact ⟨name, place, finish, primed node found, named, accepted⟩

theorem build_of_lookup {text : String} (direct : beginsIndirection text.toList = false) :
    ∃ result, build table arena text none false = (result, table, arena) ∧
      ∀ target node, result = .ok target → target.node = some node →
        ∃ name, ReadsAs table arena (Cursor.ofText text) node name := by
  have stays := @stays_buildPath_of_lookup table arena (Cursor.ofText text)
  unfold build
  rw [if_neg (Bool.eq_false_iff.mp direct)]
  unfold Stays at stays
  cases ran : buildPath table false none ⟨Cursor.ofText text, arena⟩ with
  | error failure later =>
    rw [ran] at stays
    rcases later with ⟨_, _⟩
    cases stays
    exact ⟨_, rfl, nofun⟩
  | ok found later =>
    rw [ran] at stays
    rcases found with ⟨target, pending⟩
    rcases later with ⟨_, _⟩
    rcases stays with ⟨⟨⟩, ⟨⟩, names⟩
    refine ⟨_, rfl, ?_⟩
    rintro _ node ⟨⟩ found
    exact names node found

end

end Path

namespace SymbolTable

open RecordGraph.Path (Cursor ReadsAs)

section

variable {table : SymbolTable} {arena : Arena} {path : String}

/-- Storing without leave to create gives the node of the destination, whatever its attribute. -/
theorem result_set_of_destination {value : Value} {node : Option NodeId} {name : Option String}
    {finish : Cursor}
    (read : (table.destination arena).run (Cursor.ofText path) = .ok (node, name) finish) :
    (table.set arena path value false).result = node := by
  simp only [set, read]
  cases node <;> cases (destinationAttr arena name false).1 <;> rfl

theorem result_set_eq_some_iff_readsAs {value : Value} {node : NodeId} :
    (table.set arena path value false).result = some node ↔
      ∃ name, ReadsAs table arena (Cursor.ofText path) node name := by
  constructor
  · intro found
    cases ran : (table.destination arena).run (Cursor.ofText path) with
    | error failure finish =>
      simp only [set, ran] at found
      cases found
    | ok target finish =>
      rcases target with ⟨reached, name⟩
      cases (result_set_of_destination ran).symm.trans found
      rcases Path.destination_eq_ok_iff.mp ran with ⟨place, reads⟩
      exact ⟨name, place, finish, reads⟩
  · rintro ⟨name, place, finish, reads⟩
    exact result_set_of_destination (Path.destination_eq_ok_iff.mpr ⟨place, reads⟩)

theorem result_replace_eq_some_iff_readsAs {node : NodeId}
    (direct : Path.beginsIndirection path.toList = false) :
    (table.replace arena path none false).result = some node ↔
      ∃ name, ReadsAs table arena (Cursor.ofText path) node name := by
  constructor
  · intro found
    rcases @Path.build_of_lookup table arena path direct with ⟨result, built, names⟩
    unfold replace at found
    rw [built] at found
    cases result with
    | error failure => cases found
    | ok target => exact names target node rfl found
  · rintro ⟨name, reads⟩
    rw [replace, Path.build_of_readsAs direct reads]

/-- Reading a path, storing a value at it and going over it address the same node, well formed or
not, as long as nothing may be created. Going over it changes nothing. -/
theorem readers_agree (direct : Path.beginsIndirection path.toList = false) (value : Value) :
    (table.set arena path value false).result = table.get arena path ∧
      (table.replace arena path none false).result = table.get arena path ∧
      (table.replace arena path none false).table = table ∧
      (table.replace arena path none false).arena = arena := by
  rcases @Path.build_of_lookup table arena path direct with ⟨result, built, -⟩
  have unchanged : (table.replace arena path none false).table = table ∧
      (table.replace arena path none false).arena = arena := by
    unfold replace
    rw [built]
    cases result <;> exact ⟨rfl, rfl⟩
  refine ⟨Option.ext fun node => ?_, Option.ext fun node => ?_, unchanged⟩
  · rw [result_set_eq_some_iff_readsAs, get_eq_some_iff_readsAs direct]
  · rw [result_replace_eq_some_iff_readsAs direct, get_eq_some_iff_readsAs direct]

/-- They agree on the attribute of a node, and on an index that is not closed. -/
theorem readers_agree_keyed :
    Path.beginsIndirection "a.note".toList = false ∧
      Path.beginsIndirection "a[0".toList = false ∧
      keyed.1.get keyed.2 "a.note" = some ⟨0, 0⟩ ∧
      (keyed.1.set keyed.2 "a.note" (.text "x") false).result = some ⟨0, 0⟩ ∧
      (keyed.1.replace keyed.2 "a.note" none false).result = some ⟨0, 0⟩ ∧
      keyed.1.get keyed.2 "a[0" = none ∧
      (keyed.1.set keyed.2 "a[0" (.text "x") false).result = none ∧
      (keyed.1.replace keyed.2 "a[0" none false).result = none := by
  have direct : Path.beginsIndirection "a.note".toList = false := by decide
  have unclosed : Path.beginsIndirection "a[0".toList = false := by decide
  have named : keyed.1.get keyed.2 "a.note" = some ⟨0, 0⟩ := by decide +kernel
  have refused : keyed.1.get keyed.2 "a[0" = none := by decide +kernel
  have agree := @readers_agree keyed.1 keyed.2 "a.note" direct (.text "x")
  have agreeUnclosed := @readers_agree keyed.1 keyed.2 "a[0" unclosed (.text "x")
  rw [named] at agree
  rw [refused] at agreeUnclosed
  exact ⟨direct, unclosed, named, agree.1, agree.2.1, refused, agreeUnclosed.1, agreeUnclosed.2.1⟩

end

end SymbolTable
end RecordGraph
