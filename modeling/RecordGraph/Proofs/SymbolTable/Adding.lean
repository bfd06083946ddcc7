import RecordGraph.Proofs.Arena.Ways
import RecordGraph.Proofs.SymbolTable.Combs
import RecordGraph.Proofs.SymbolTable.Templates

/-!
# What is added at a path is found there

A node that is added at a key with indices behind it is bound to the key or put at the place where
the indices end. It is found there afterwards, if the arena takes it and the way does not lead
through that place on its way to it: behind the new child the indices may lead elsewhere.
-/

namespace RecordGraph

def SymbolTable.Revisits (table : SymbolTable) (arena : Arena) (plain : Path.Plain) : Prop :=
  ∃ origin, table.lookup plain.key = some origin ∧ arena.Revisits origin plain.numbers

/-- The node can be put where the path ends, and the path leads there again. A key without indices
takes every node. Behind indices the node stands there already, or the arena has to take it as a
child at a place that the path meets only once. -/
def SymbolTable.Receives (table : SymbolTable) (arena : Arena) (plain : Path.Plain)
    (node : NodeId) : Prop :=
  plain.numbers = [] ∨ table.find arena plain.text = some node ∨
    arena.canLink node = true ∧ ¬ table.Revisits arena plain

namespace Path

open RecordGraph.Arena (Plants Spreads)

section

variable {table : SymbolTable} (sprouts : table.registry.Sprouts) {template : Option NodeId}
  {holds : NodeId → Nat} {arena : Arena} (steady : arena.Steady [] holds)

include sprouts steady

theorem spread_childAt {parent child : NodeId} {index : Nat} {start finish : Cursor} {after : Arena}
    (known : arena.Issued parent)
    (ran : childAt table true template parent index ⟨start, arena⟩ =
      .ok (some child) ⟨finish, after⟩) :
    finish = start ∧ after.child? parent index = some child ∧ Spread holds arena after := by
  rcases childAt_cases ran with ⟨ended, found, rfl | rfl⟩
  · exact ⟨ended, found, steady, .refl _⟩
  · have ensured := Spreads.ensureChildren arena parent
    have filled := spread_fillUp sprouts (steady.ensureChildren parent) template
      (ensured.issued known) index (index + 1 - arena.childCount parent)
    exact ⟨ended, found, filled.steady, ensured.trans filled.spreads⟩

/-- Indices that lead to a node lead there in the arena that they leave, and the last of them is
the place that they remember. -/
theorem descend_of_followIndices {indices : List (List Char)} {rest rounds : List Char}
    (indexed : Indexed indices rounds) (ends : rest.head? ≠ some '[') {origin node : NodeId} {place last : Option (NodeId × Nat)}
    {position : Nat} {finish : Cursor} {after : Arena}
    (known : arena.Issued origin)
    (ran : followIndices table true template rounds (some origin) place
      ⟨⟨position, bracketed indices ++ rest⟩, arena⟩ = .ok (some node, last) ⟨finish, after⟩) :
    (∀ digits ∈ indices, indexOf digits < indexBound) ∧ finish = .behind position indices rest ∧
      Spread holds arena after ∧ after.descend origin (indices.map indexOf) = some node ∧
      (indices = [] ∧ last = place ∨ ∃ front parent index,
        indices.map indexOf = front ++ [index] ∧ last = some (parent, index) ∧
          after.descend origin front = some parent) := by
  induction indexed generalizing arena origin place position with
  | nil =>
    rw [followIndices_of_no_bracket ends] at ran
    cases ran
    exact ⟨nofun, rfl, ⟨steady, .refl _⟩, rfl, .inl ⟨rfl, rfl⟩⟩
  | @cons digits indices round rounds present isDigit _ induction =>
    rw [bracketed_cons] at ran
    rcases (followIndices_cons_eq_ok_iff rfl).mp ran with
      ⟨_, index, indexed, child, reached, roomy, closed, ⟨⟩, read, found, ended, onward⟩
    rcases (indexValue_eq_ok_iff present isDigit).mp read with ⟨small, rfl, rfl⟩
    rcases spread_childAt sprouts steady known found with ⟨rfl, stands, spread⟩
    cases (closeBracket_eq _).symm.trans ended
    rw [← behind_cons]
    have childLive := spread.steady.child_live (Array.mem_of_getElem? stands)
    rcases induction spread.steady (Arena.issued_of_contains childLive) onward
      with ⟨smaller, same, further, reaches, placed⟩
    have kept : after.child? origin (indexOf digits) = some child := further.spreads.child stands
    refine ⟨List.forall_mem_cons.mpr ⟨small, smaller⟩, same,
      ⟨further.steady, spread.spreads.trans further.spreads⟩, ?_, .inr ?_⟩
    · rw [List.map_cons, Arena.descend, kept, Option.bind_some, reaches]
    · rcases placed with ⟨rfl, rfl⟩ | ⟨front, parent, index, numbers, rfl, way⟩
      · exact ⟨[], origin, indexOf digits, rfl, rfl, rfl⟩
      · refine ⟨indexOf digits :: front, parent, index, ?_, rfl, ?_⟩
        · rw [List.map_cons, numbers, List.cons_append]
        · rw [Arena.descend, kept, Option.bind_some, way]

end

/-! ## A template at the end of indices -/

structure Installs (holds : NodeId → Nat) (arena : Arena) (origin template : NodeId)
    (numbers : List Nat) (later : Arena) : Prop where
  made : ∃ roomy front parent index old, Spread holds arena roomy ∧ numbers = front ++ [index] ∧
    roomy.descend origin front = some parent ∧ roomy.child? parent index = some old ∧
    later = (roomy.setChild parent index template).2

section

variable {table : SymbolTable} (sprouts : table.registry.Sprouts) {template : NodeId}
  {holds : NodeId → Nat} {arena : Arena} (steady : arena.Steady [] holds)

include sprouts steady in
theorem installs_buildIndices {indices : List (List Char)} {rest : List Char}
    (areDigits : ∀ digits ∈ indices, digits ≠ [] ∧ ∀ digit ∈ digits, Text.isDigit digit = true)
    (ends : rest.head? ≠ some '[') (present : indices ≠ []) {origin node : NodeId} {position : Nat}
    {finish : Cursor} {after : Arena} (known : arena.Issued origin)
    (ran : buildIndices table true (some template) origin
      ⟨⟨position, bracketed indices ++ rest⟩, arena⟩ = .ok (some node) ⟨finish, after⟩) :
    node = template ∧ (∀ digits ∈ indices, indexOf digits < indexBound) ∧
      finish = .behind position indices rest ∧
      Installs holds arena origin template (indices.map indexOf) after := by
  unfold buildIndices at ran
  rcases bind_eq_ok_iff.mp ran with ⟨_, _, ⟨⟩, ran⟩
  rcases bind_eq_ok_iff.mp ran with ⟨⟨reached, last⟩, ⟨place, roomy⟩, followed, ran⟩
  cases reached with
  | none => cases ran
  | some reached =>
    rcases descend_of_followIndices sprouts steady (.of_bracketed areDigits rest) ends known
      followed with ⟨small, rfl, spread, reaches, none | ⟨front, parent, index, numbers, rfl, way⟩⟩
    · exact absurd none.1 present
    · rcases bind_eq_ok_iff.mp ran with ⟨_, _, put, ⟨⟩⟩
      rcases change_eq_ok_iff.mp put with ⟨-, ⟨⟩⟩
      rw [numbers, Arena.descend_append, way, Option.bind_some, Arena.descend_singleton] at reaches
      exact ⟨rfl, small, rfl, roomy, front, parent, index, reached, spread, numbers, way, reaches,
        rfl⟩

/-- Whether an arena takes a node as a child is not changed by what grows elsewhere. -/
theorem canLink_of_spreads {later : Arena} (spreads : arena.Spreads later)
    (linkable : arena.canLink template = true) : later.canLink template = true := by
  rcases Arena.contains_iff.mp (Arena.contains_of_canLink linkable) with ⟨node, owners, found⟩
  rcases spreads.node found with ⟨content, standing, ⟨children, rfl⟩, -⟩
  rw [Arena.canLink, found] at linkable
  rw [Arena.canLink, standing]
  exact linkable

/-- A template is what the indices lead to if they led to it before, or if it is taken and they meet
the place only once. -/
theorem Installs.descend {origin : NodeId} {numbers : List Nat} {after : Arena}
    (installs : Installs holds arena origin template numbers after)
    (accepted : arena.descend origin numbers = some template ∨
      arena.canLink template = true ∧
        ∀ roomy, arena.Spreads roomy → ¬ roomy.Revisits origin numbers)
    (known : arena.Issued origin)
    (secure : arena.contains origin = true →
      0 < holds origin ∨ origin ≠ template ∧ arena.isUnowned origin = true) :
    after.descend origin numbers = some template := by
  rcases installs.made with
    ⟨roomy, front, parent, index, old, spread, rfl, way, stood, rfl⟩
  have standing : arena.contains origin = true := by
    rw [← spread.spreads.contains known]
    exact (Arena.reaches_of_descend way).contains (Arena.contains_of_child stood)
  refine Arena.descend_setChild spread.steady stood ?_ ?_ way
  · refine accepted.imp (fun found => ?_) fun ⟨linkable, once⟩ =>
      ⟨canLink_of_spreads spread.spreads linkable, once roomy spread.spreads⟩
    have again := Arena.descend_of_child spread.spreads.child found
    rw [Arena.descend_append, way, Option.bind_some, Arena.descend_singleton, stood] at again
    exact Option.some.inj again
  · refine (secure standing).imp_right fun ⟨different, unowned⟩ => ⟨different, ?_⟩
    rcases Arena.isUnowned_iff.mp unowned with ⟨node, found⟩
    rcases spread.spreads.node found with ⟨content, found, -⟩
    exact Arena.isUnowned_iff.mpr ⟨content, found⟩

end

/-! ## The binding of the key -/

section

variable {table : SymbolTable} {arena : Arena} {wanted : PendingBinding}
  (kept : table.lookup wanted.key = none ∨ table.lookup wanted.key = some wanted.node)

include kept

/-- A binding that is new gives its node an owner, and one that was made before changes nothing but
the name of the node. -/
theorem bind_cases : ∃ named, (named = arena ∨
      named = arena.modifyNode wanted.node fun node => { node with name := wanted.key }) ∧
    ((bind table arena wanted).2 = named ∨
      (bind table arena wanted).2 = named.retain wanted.node) := by
  rcases kept with free | same
  · rcases @bind_of_free table arena wanted free with ⟨named, naming, made⟩
    exact ⟨named, naming, .inr (by rw [made])⟩
  · rcases bind_eq_define table arena wanted with ⟨named, naming, defines⟩
    refine ⟨named, naming, .inl ?_⟩
    rw [defines, SymbolTable.define, same, if_pos rfl]

theorem enriched_bind : arena.Enriched (bind table arena wanted).2 := by
  rcases @bind_cases table arena wanted kept with ⟨named, naming, made⟩
  have enriched : arena.Enriched named := by
    rcases naming with rfl | rfl
    · exact .refl named
    · exact .modifyNode arena wanted.node fun _ => ⟨id, id⟩
  rcases made with same | same
  · rw [same]
    exact enriched
  · rw [same]
    exact enriched.trans (.retain named wanted.node)

end

/-- The key of a path is bound to a node, or it is asked to be bound to it, and the binding that it
has does not end the way below that node. -/
def Primes (table : SymbolTable) (plain : Plain) (origin : NodeId)
    (pending : Option PendingBinding) : Prop :=
  pending = none ∧ table.lookup plain.key = some origin ∨
    ∃ fresh, pending = some ⟨plain.key, origin, fresh⟩ ∧
      (plain.numbers = [] ∨ table.lookup plain.key = none ∨ table.lookup plain.key = some origin)

section

variable {table : SymbolTable} (sprouts : table.registry.Sprouts) {template : NodeId}
  {holds : NodeId → Nat} {arena : Arena} (steady : arena.Steady [] holds)
  (live : arena.contains template = true) {plain : Plain} {node : NodeId}
  {pending : Option PendingBinding} {finish : Cursor} {later : Arena}
  (ran : buildPrimary table true (some template) ⟨.ofText plain.text, arena⟩ =
    .ok (some node, pending) ⟨finish, later⟩)

include sprouts steady live ran

theorem primes_of_bound {existing : NodeId} (bound : table.lookup plain.key = some existing)
    (known : arena.Issued existing) (held : arena.contains existing = true → 0 < holds existing) :
    node = template ∧ plain.Small ∧ finish = plain.middle ∧
      (plain.numbers = [] → later.contains template = true) ∧
      ∃ origin, Primes table plain origin pending ∧
        (table.Receives arena plain template →
          later.descend origin plain.numbers = some template) := by
  rw [buildPrimary_of_bound (plain.read_key table arena _) bound,
    if_neg plain.isIdentifier_key.ne_empty] at ran
  rcases bind_eq_ok_iff.mp ran with ⟨addressed, ⟨place, roomy⟩, built, ran⟩
  simp only at ran
  by_cases none : plain.indices = []
  · have numbers := plain.numbers_of_nil none
    cases (plain.buildIndices_of_nil none).symm.trans built
    rw [if_pos rfl] at ran
    cases ran
    exact ⟨rfl, plain.small_of_nil none, (plain.middle_of_nil none).symm, fun _ => live, template,
      .inr ⟨false, rfl, .inl numbers⟩, fun _ => by rw [numbers]; rfl⟩
  · have indexed (empty : plain.numbers = []) : later.contains template = true :=
      absurd (List.map_eq_nil_iff.mp empty) none
    cases addressed with
    | none => cases ran
    | some reached =>
      rcases installs_buildIndices sprouts steady plain.isDigit_indices plain.no_bracket_attrText
        none known built with ⟨rfl, small, rfl, installs⟩
      have descends (receives : table.Receives arena plain reached) :
          roomy.descend existing plain.numbers = some reached := by
        rcases receives with empty | found | ⟨linkable, once⟩
        · exact absurd (List.map_eq_nil_iff.mp empty) none
        · rcases SymbolTable.find_eq_some_iff_descends.mp found with ⟨origin, same, -, reaches⟩
          cases bound.symm.trans same
          exact installs.descend (.inl reaches) known fun standing => .inl (held standing)
        · exact installs.descend
            (.inr ⟨linkable, fun grown spreads twice =>
              once ⟨existing, bound, spreads.revisits twice⟩⟩)
            known fun standing => .inl (held standing)
      split at ran
      · rename_i same
        cases same
        cases ran
        exact ⟨rfl, small, rfl, indexed, _, .inr ⟨false, rfl, .inr (.inr bound)⟩, descends⟩
      · cases ran
        exact ⟨rfl, small, rfl, indexed, existing, .inl ⟨rfl, bound⟩, descends⟩

/-- A template for a key that is not bound is bound to it, or put below the node that is built for
the key. -/
theorem primes_of_unbound (unbound : table.lookup plain.key = none) :
    node = template ∧ plain.Small ∧ finish = plain.middle ∧
      (plain.numbers = [] → later.contains template = true) ∧
      ∃ origin, Primes table plain origin pending ∧
        (table.Receives arena plain template →
          later.descend origin plain.numbers = some template) := by
  have sprouted := sprouts_freshNode sprouts (some template) plain.key steady.wellFormed
  rcases made : freshNode table.registry (some template) plain.key arena with ⟨fresh, stored⟩
  rw [made] at sprouted
  have plants : Plants holds [] [fresh] arena stored := sprouted.plants steady
  rw [buildPrimary_of_unbound (plain.read_key table arena _) unbound
    plain.isIdentifier_key.ne_empty made] at ran
  have top := plants.top_fresh (List.mem_singleton_self fresh)
  have apart : fresh ≠ template := by
    rintro rfl
    exact top.2 (Arena.issued_of_contains live)
  rcases bind_eq_ok_iff.mp ran with ⟨addressed, ⟨place, roomy⟩, built, ran⟩
  have built := onFailure_eq_ok_iff.mp built
  by_cases none : plain.indices = []
  · have numbers := plain.numbers_of_nil none
    cases (plain.buildIndices_of_nil none).symm.trans built
    rw [if_pos rfl] at ran
    rcases bind_eq_ok_iff.mp ran with ⟨_, _, freed, ⟨⟩⟩
    rcases change_eq_ok_iff.mp freed with ⟨-, ⟨⟩⟩
    have stays : (stored.releaseIfUnowned fresh).contains template = true := by
      rwa [Arena.contains, plants.uprooted steady]
    exact ⟨rfl, plain.small_of_nil none, (plain.middle_of_nil none).symm, fun _ => stays, template,
      .inr ⟨false, rfl, .inl numbers⟩, fun _ => by rw [numbers]; rfl⟩
  · cases addressed with
    | none =>
      rw [if_neg (Option.some_ne_none fresh).symm] at ran
      cases ran
    | some reached =>
      rcases installs_buildIndices sprouts plants.steady plain.isDigit_indices
        plain.no_bracket_attrText none top.1 built with ⟨rfl, small, rfl, installs⟩
      rw [if_neg fun same => apart (Option.some.inj same).symm] at ran
      cases ran
      refine ⟨rfl, small, rfl, fun empty => absurd (List.map_eq_nil_iff.mp empty) none, fresh,
        .inr ⟨true, rfl, .inr (.inl unbound)⟩, fun receives => ?_⟩
      have spreads := Spreads.of_plants plants
      rcases receives with empty | found | ⟨linkable, -⟩
      · exact absurd (List.map_eq_nil_iff.mp empty) none
      · rcases SymbolTable.find_eq_some_iff_descends.mp found with ⟨origin, same, -⟩
        cases unbound.symm.trans same
      · refine installs.descend
          (.inr ⟨canLink_of_spreads spreads linkable, fun grown grows =>
            (spreads.trans grows).not_revisits_of_new top.2⟩) top.1 fun _ => .inr ?_
        exact ⟨apart, plants.isUnowned_top (List.mem_singleton_self fresh)⟩

theorem primes_of_buildPrimary
    (held : ∀ origin, table.lookup plain.key = some origin →
      arena.Issued origin ∧ (arena.contains origin = true → 0 < holds origin)) :
    node = template ∧ plain.Small ∧ finish = plain.middle ∧
      (plain.numbers = [] → later.contains template = true) ∧
      ∃ origin, Primes table plain origin pending ∧
        (table.Receives arena plain template →
          later.descend origin plain.numbers = some template) := by
  cases bound : table.lookup plain.key with
  | some existing =>
    rcases held existing bound with ⟨known, standing⟩
    exact primes_of_bound sprouts steady live ran bound known standing
  | none => exact primes_of_unbound sprouts steady live ran bound

omit sprouts steady live ran in
/-- Once the binding is made that was asked for, the key is bound to the node from which the indices
lead on. -/
theorem Primes.descend {origin : NodeId} (primes : Primes table plain origin pending)
    (way : later.descend origin plain.numbers = some template) :
    let bound := match pending with
      | none => (table, later)
      | some wanted => bind table later wanted
    bound.1.lookup plain.key = some origin ∧
      bound.2.descend origin plain.numbers = some template := by
  rcases primes with ⟨rfl, bound⟩ | ⟨fresh, rfl, kept⟩
  · exact ⟨bound, way⟩
  · constructor
    · rcases bind_eq_define table later ⟨plain.key, origin, fresh⟩ with ⟨named, -, defines⟩
      simp only [defines]
      exact table.lookup_define named plain.key origin
    · rcases kept with empty | kept
      · rw [empty] at way ⊢
        exact way
      · exact Arena.descend_of_child (enriched_bind kept).child way

end

end Path

namespace SymbolTable

open RecordGraph.Path (Plain)

variable {table : SymbolTable} {arena : Arena} {plain : Plain} {template node : NodeId}

theorem buildPrimary_of_add {text : String} (direct : Path.beginsIndirection text.toList = false)
    (added : (table.add arena text template).result = some node) :
    ∃ pending finish roomy,
      Path.buildPrimary table true (some template) ⟨.ofText text, arena⟩ =
      .ok (some node, pending) ⟨finish, roomy⟩ := by
  unfold add replace Path.build at added
  rw [if_neg (Bool.eq_false_iff.mp direct)] at added
  cases ran : Path.buildPath table true (some template) ⟨.ofText text, arena⟩ with
  | error failure progress =>
    rw [ran] at added
    cases added
  | ok result progress =>
    rw [ran] at added
    unfold Path.buildPath at ran
    rcases bind_eq_ok_iff.mp ran with ⟨⟨reached, pending⟩, ⟨finish, roomy⟩, primed, ran⟩
    rcases bind_eq_ok_iff.mp ran with ⟨_, _, -, ⟨⟩⟩
    have same : reached = some node := by cases pending <;> exact added
    exact ⟨pending, finish, roomy, same ▸ primed⟩

/-- A node that is added is given back, and it is found at the path, if the path receives it. -/
theorem find_add {holds : NodeId → Nat} (sprouts : table.registry.Sprouts)
    (steady : arena.Steady [] holds)
    (held : ∀ origin, table.lookup plain.key = some origin →
      arena.Issued origin ∧ (arena.contains origin = true → 0 < holds origin))
    (live : arena.contains template = true) (bare : plain.attr = none)
    (added : (table.add arena plain.text template).result = some node) :
    node = template ∧ (table.Receives arena plain template →
      (table.add arena plain.text template).table.find
        (table.add arena plain.text template).arena plain.text = some template) := by
  rcases buildPrimary_of_add plain.direct added with ⟨pending, finish, roomy, primed⟩
  rcases Path.primes_of_buildPrimary sprouts steady live primed held with
    ⟨rfl, small, rfl, -, origin, primes, descends⟩
  refine ⟨rfl, fun receives => ?_⟩
  rcases primes.descend (descends receives) with ⟨bound, way⟩
  rw [add_of_buildPrimary bare primed]
  cases pending <;> exact find_eq_some_iff_descends.mpr ⟨origin, bound, small, way⟩

end SymbolTable

/-- What is added at a path without an attribute is what adding gives back, in every table over a
balanced arena whose factories store trees of new nodes. It is found at the path afterwards, if the
path receives it. -/
theorem Workspace.find_of_added {workspace : Workspace} {claims : NodeId → Nat}
    (balanced : workspace.Balanced claims) {table : SymbolTable} (member : table ∈ workspace.tables)
    (sprouts : table.registry.Sprouts) {template : NodeId}
    (live : workspace.arena.contains template = true) {plain : Path.Plain}
    (bare : plain.attr = none) {node : NodeId}
    (added : (table.add workspace.arena plain.text template).result = some node) :
    let outcome := table.add workspace.arena plain.text template
    node = template ∧ (table.Receives workspace.arena plain template →
      outcome.table.find outcome.arena plain.text = some template) := by
  have accounts := balanced.accounts
  refine SymbolTable.find_add sprouts accounts.steady (fun origin bound => ?_) live bare added
  have claimed : 0 < workspace.bindingCount origin := by
    have bindings :=
      List.le_sum_of_mem (List.mem_map_of_mem (f := (·.bindingCount origin)) member)
    exact Nat.lt_of_lt_of_le (SymbolTable.bindingCount_pos bound) bindings
  refine ⟨accounts.issued (Nat.add_pos_left claimed _), fun standing => ?_⟩
  simp only [Arena.standing, standing, ↓reduceIte]
  omega

namespace SymbolTable

def indexed : Path.Plain :=
  { noted with attr := none, isIdentifier_attr := Path.isIdentifier_none }

/-- The node of the key is put below itself. -/
theorem find_of_added_indexed :
    Workspace.Balanced ⟨keyed.2, [keyed.1]⟩ (fun _ => 0) ∧ keyed.2.contains ⟨0, 0⟩ = true ∧
      indexed.text = "a[1]" ∧ keyed.1.Receives keyed.2 indexed ⟨0, 0⟩ ∧
      (keyed.1.add keyed.2 indexed.text ⟨0, 0⟩).result = some ⟨0, 0⟩ ∧
      (keyed.1.add keyed.2 indexed.text ⟨0, 0⟩).table.find
        (keyed.1.add keyed.2 indexed.text ⟨0, 0⟩).arena indexed.text = some ⟨0, 0⟩ := by
  have live : keyed.2.contains ⟨0, 0⟩ = true := by decide +kernel
  have linkable : keyed.2.canLink ⟨0, 0⟩ = true := by decide +kernel
  have sprouts : keyed.1.registry.Sprouts := by
    rw [keyed, registry_define]
    exact Registry.direct_standard.sprouts
  -- a way that meets a place twice has two indices at least
  have once : ¬ keyed.1.Revisits keyed.2 indexed := by
    rintro ⟨origin, -, front, index, middle, parent, numbers, -⟩
    have lengths : 1 = _ := congrArg List.length numbers
    simp only [List.length_append, List.length_cons, List.length_nil] at lengths
    omega
  have receives : keyed.1.Receives keyed.2 indexed ⟨0, 0⟩ := .inr (.inr ⟨linkable, once⟩)
  have added : (keyed.1.add keyed.2 indexed.text ⟨0, 0⟩).result = some ⟨0, 0⟩ := by
    decide +kernel
  have found := @Workspace.find_of_added ⟨keyed.2, [keyed.1]⟩ (fun _ => 0) balanced_keyed keyed.1
    (List.mem_singleton_self keyed.1) sprouts ⟨0, 0⟩ live indexed rfl ⟨0, 0⟩ added
  exact ⟨balanced_keyed, live, rfl, receives, added, found.2 receives⟩

theorem balanced_add {table : SymbolTable} {arena : Arena} {claims : NodeId → Nat} {node : NodeId}
    (balanced : Workspace.Balanced ⟨arena, [table]⟩ claims)
    (allocates : table.registry.Allocates) (issued : arena.Issued node) (path : String) :
    Workspace.Balanced
      ⟨(table.add arena path node).arena, [(table.add arena path node).table]⟩ claims := by
  have allAllocate : Workspace.Allocates ⟨arena, [table]⟩ := by
    intro other member
    rw [List.mem_singleton.mp member]
    exact allocates
  have allIssued : ∀ other ∈ (Workspace.Call.add 0 path node).nodes, arena.Issued other := by
    intro other member
    rw [List.mem_singleton.mp member]
    exact issued
  exact (Workspace.balanced_apply balanced allAllocate allIssued).1

def looped : SymbolTable × Arena :=
  let outcome := keyed.1.add keyed.2 "a[1]" ⟨0, 0⟩
  (outcome.table, outcome.arena)

theorem balanced_looped : Workspace.Balanced ⟨looped.2, [looped.1]⟩ fun _ => 0 := by
  have allocates : keyed.1.registry.Allocates := by
    rw [keyed, registry_define]
    exact Registry.allocates_standard
  have issued : keyed.2.Issued ⟨0, 0⟩ := Arena.issued_of_contains (by decide +kernel)
  have added := balanced_add balanced_keyed allocates issued "a[1]"
  dsimp only [looped]
  exact added

def reserved : Arena :=
  keyed.2.modifyNode ⟨0, 0⟩ fun node => { node with shareable := false }

theorem balanced_reserved : Workspace.Balanced ⟨reserved, [keyed.1]⟩ fun _ => 0 :=
  Workspace.balanced_of_accounts
    (balanced_keyed.accounts.settle (.childless keyed.2 ⟨0, 0⟩ fun _ => rfl))

/-- Two nodes that are given back and not found. The first is put at `a[1]`, where the way led
through the node of the key again. The second has an owner and is not to be shared, so the arena
does not take it. -/
theorem added_unfound :
    let put := looped.1.add looped.2 "a[1][1]" ⟨1, 0⟩
    let refused := keyed.1.add reserved "b[0]" ⟨0, 0⟩
    (Workspace.Balanced ⟨looped.2, [looped.1]⟩ (fun _ => 0) ∧ looped.2.contains ⟨1, 0⟩ = true ∧
        put.result = some ⟨1, 0⟩ ∧ put.table.find put.arena "a[1][1]" = none) ∧
      Workspace.Balanced ⟨reserved, [keyed.1]⟩ (fun _ => 0) ∧ reserved.contains ⟨0, 0⟩ = true ∧
        refused.result = some ⟨0, 0⟩ ∧
          refused.table.find refused.arena "b[0]" = some ⟨2, 0⟩ :=
  ⟨⟨balanced_looped, by decide +kernel, by decide +kernel, by decide +kernel⟩,
    balanced_reserved, by decide +kernel, by decide +kernel, by decide +kernel⟩

end SymbolTable

end RecordGraph
