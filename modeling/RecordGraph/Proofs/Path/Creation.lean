import RecordGraph.Proofs.Allocation
import RecordGraph.Proofs.Path.Building

/-!
# Paths that make way settle their accounts

On every exit of a path that brings things into being, each node that was built on the way stands in
a child list, waits for the binding that was asked for, or has been freed again.
-/

namespace RecordGraph.Path

open RecordGraph.Arena (Settles)

def Builder.Settling (builder : Builder α) : Prop :=
  ∀ origin owed, builder.Meets (Settles owed origin) (fun _ => Settles owed origin)
    (Settles owed origin)

variable {table : SymbolTable} (allocates : table.registry.Allocates) (create : Bool)
  (template : Option NodeId)

include allocates

theorem settles_fillUp (parent : NodeId) (index rounds : Nat) (arena : Arena) :
    Settles [] arena (fillUp table.registry template parent index rounds arena) := by
  apply fillUp_keeps (Settles [] arena) _ rounds (.refl arena)
  intro middle filler stored settles _ made
  have built := settles_freshNode allocates template "" middle
  rw [made] at built
  have linked := (settles.trans built).andThen (.pushChild stored parent filler)
  split
  · rename_i pushed
    exact linked.drop_owned (Arena.isUnowned_pushChild pushed)
  · exact linked.drop

theorem settling_makeRoom (parent : NodeId) (index : Nat) :
    (makeRoom table template parent index).Settling := by
  intro origin owed
  apply preserves_makeRoom
  intro arena rounds _ settles
  exact settles.andThen ((Settles.ensureChildren arena parent).trans
    (settles_fillUp allocates template parent index rounds _))

theorem settling_childAt (parent : NodeId) (index : Nat) :
    (childAt table create template parent index).Settling :=
  fun origin owed =>
    meets_childAt (settling_makeRoom allocates template parent index origin owed) id

theorem settling_buildIndices (start : NodeId) :
    (buildIndices table create template start).Settling := by
  intro origin owed
  have followed (rounds : List Char) :=
    meets_followIndices (fun _ _ => Settles owed origin)
      (fun parent index _ => settling_childAt allocates create template parent index origin owed)
      id id rounds (some start) none
  apply meets_buildIndices (fun _ _ => Settles owed origin) followed _ id
  intro node last parent index arena _ settles
  exact settles.andThen (.setChild arena parent index node)

omit allocates

/-- The node that a binding was decided on for, if it was built for it and nothing owns it yet. -/
def PendingBinding.unbound : Option PendingBinding → List NodeId
  | some ⟨_, node, true⟩ => [node]
  | _ => []

def PendingBinding.Warranted (template : Option NodeId) (pending : Option PendingBinding) : Prop :=
  ∀ key node, pending = some ⟨key, node, false⟩ → template = some node

def Asked (template : Option NodeId) (origin : Arena) (pending : Option PendingBinding)
    (arena : Arena) : Prop :=
  Settles (PendingBinding.unbound pending) origin arena ∧
    PendingBinding.Warranted template pending

theorem settles_abandon {origin arena : Arena} {pending : Option PendingBinding}
    (asked : Asked template origin pending arena) : Settles [] origin (abandon pending arena) := by
  unfold abandon
  split
  · exact asked.1.drop
  · rename_i other
    have none : PendingBinding.unbound pending = [] := by
      unfold PendingBinding.unbound
      split
      · exact absurd rfl (other _ _)
      · rfl
    rw [← none]
    exact asked.1

include allocates in
theorem meets_buildPrimary (origin : Arena) :
    (buildPrimary table create template).Meets (Settles [] origin)
      (fun result => Asked template origin result.2) (Settles [] origin) := by
  unfold buildPrimary
  apply (Builder.meets_look _).bind
  intro key
  split
  · exact Builder.meets_pure fun settles => ⟨settles, nofun⟩
  · split
    · rename_i existing _
      apply (settling_buildIndices allocates create template existing origin []).bind
      intro addressed
      split
      · rename_i node
        split
        · refine Builder.meets_pure fun settles => ⟨settles, fun _ _ same => ?_⟩
          cases same
          rfl
        · exact Builder.meets_pure fun settles => ⟨settles, nofun⟩
      · exact Builder.meets_pure fun settles => ⟨settles, nofun⟩
    · split
      · have built : (Builder.change (freshNode table.registry template key)).Meets
            (Settles [] origin) (fun fresh => Settles [fresh] origin) (Settles [] origin) :=
          Builder.meets_change fun arena settles =>
            settles.trans (settles_freshNode allocates template key arena)
        apply built.bind
        intro fresh
        have addressing := (settling_buildIndices allocates create template fresh origin
          [fresh]).onFailure fun arena settles => settles.drop
        apply addressing.bind
        intro addressed
        split
        · rename_i node
          split
          · have freed : (Builder.change fun arena => ((), arena.releaseIfUnowned fresh)).Meets
                (Settles [fresh] origin) (fun _ => Settles [] origin) (Settles [] origin) :=
              Builder.meets_change fun arena settles => settles.drop
            apply freed.bind
            refine fun _ => Builder.meets_pure fun settles => ⟨settles, fun _ _ same => ?_⟩
            cases same
            rfl
          · exact Builder.meets_pure fun settles => ⟨settles, nofun⟩
        · exact Builder.meets_pure fun settles => ⟨settles, nofun⟩
      · exact Builder.meets_pure fun settles => ⟨settles, nofun⟩

theorem settles_internAttr (name : String) (arena : Arena) :
    Settles [] arena (internAttr name arena).2 := by
  unfold internAttr
  split
  · exact .names arena _
  · exact .refl arena

variable (table) in
theorem settling_buildEnd : (buildEnd table create).Settling := fun _ _ =>
  preserves_buildEnd table create fun name arena settles =>
    settles.andThen (settles_internAttr name arena)

include allocates in
/-- On success a path leaves nothing unsettled but the binding that it asks for, and on failure
nothing. -/
theorem meets_buildPath (origin : Arena) :
    (buildPath table create template).Meets (Settles [] origin)
      (fun result => Asked template origin result.2) (Settles [] origin) := by
  unfold buildPath
  apply (meets_buildPrimary allocates create template origin).bind
  rintro ⟨node, pending⟩
  have asked : (buildEnd table create).Meets (Asked template origin pending)
      (fun _ => Asked template origin pending) (Asked template origin pending) := by
    rintro progress ⟨settles, warranted⟩
    have ended := settling_buildEnd table create origin _ progress settles
    cases ran : buildEnd table create progress with
    | ok attr later =>
      rw [ran] at ended
      exact ⟨ended, warranted⟩
    | error failure later =>
      rw [ran] at ended
      exact ⟨ended, warranted⟩
  apply (asked.onFailure fun arena => settles_abandon template).bind
  intro attr
  exact Builder.meets_pure id

end RecordGraph.Path
