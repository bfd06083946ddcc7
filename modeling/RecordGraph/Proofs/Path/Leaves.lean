import RecordGraph.Proofs.Arena.Acyclic
import RecordGraph.Proofs.Path.Creation

/-!
# Paths that make way hang leaves

A registry without factories builds leaves. A path that makes way pushes each of them under a node
that was there before it, and in the end it puts the template there. If the template is a leaf that
stands in no list, no cycle comes about.
-/

namespace RecordGraph.Path

open RecordGraph.Arena (Acyclic Hangs Loose Settles Sheds)

theorem freshNode_bare {registry : Registry} (direct : registry.Direct) (template : Option NodeId)
    (name : String) (arena : Arena) :
    ∃ node : Node, node.childArray = #[] ∧ node.attrs = none ∧
      freshNode registry template name arena = arena.alloc node := by
  have built (nodeType : NodeType) :
      registry.build arena { BuildRequest.named name with nodeType := some nodeType } =
        Factory.direct.build arena nodeType name none := by
    simp [Registry.build, Registry.buildNode, BuildRequest.named, direct.buildTyped,
      Factory.direct]
  unfold freshNode
  simp only [built]
  exact ⟨_, Node.childArray_ofKind .., rfl, rfl⟩

theorem freshNode_eq {registry : Registry} (direct : registry.Direct) (template : Option NodeId)
    (name : String) (arena : Arena) :
    ∃ node : Node, node.childArray = #[] ∧
      freshNode registry template name arena = arena.alloc node := by
  rcases freshNode_bare direct template name arena with ⟨node, childless, -, same⟩
  exact ⟨node, childless, same⟩

theorem sheds_internAttr (name : String) (arena : Arena) :
    arena.Sheds (internAttr name arena).2 := by
  unfold internAttr
  split
  · exact .of_same fun _ => rfl
  · exact .refl arena

structure Untangled (origin arena : Arena) : Prop where
  settles : ∃ fresh, Settles fresh origin arena
  acyclic : arena.Acyclic

structure Clear (origin : Arena) (template : Option NodeId) (arena : Arena) : Prop
    extends Untangled origin arena where
  loose : ∀ leaf, template = some leaf → arena.Loose leaf

structure Apart (template : Option NodeId) (arena : Arena) (node : NodeId) : Prop where
  issued : arena.Issued node
  different : template ≠ some node

structure Following (origin : Arena) (template current : Option NodeId)
    (place : Option (NodeId × Nat)) (arena : Arena) : Prop extends Clear origin template arena where
  current : ∀ node, current = some node → Apart template arena node
  place : ∀ node index, place = some (node, index) → Apart template arena node

section

variable {origin before after : Arena} {template current : Option NodeId} {node : NodeId}
  {place : Option (NodeId × Nat)} {fresh owed : List NodeId} {holds : NodeId → Nat}

theorem Untangled.steady (untangled : Untangled origin before) (steady : origin.Steady [] holds) :
    before.Steady [] holds := by
  rcases untangled.settles with ⟨fresh, settles⟩
  exact (settles holds steady).1

theorem Untangled.andThen (untangled : Untangled origin before)
    (settles : Settles fresh before after) (acyclic : after.Acyclic) :
    Untangled origin after := by
  rcases untangled.settles with ⟨earlier, settled⟩
  exact ⟨⟨_, settled.trans settles⟩, acyclic⟩

theorem Untangled.sheds (untangled : Untangled origin before)
    (settles : Settles fresh before after) (sheds : before.Sheds after) :
    Untangled origin after :=
  untangled.andThen settles (untangled.acyclic.sheds sheds)

theorem Apart.later (apart : Apart template before node) (steady : before.Steady [] holds)
    (settles : Settles fresh before after) : Apart template after node :=
  ⟨(settles holds steady).2.issued apart.issued, apart.different⟩

theorem Following.later (following : Following origin template current place before)
    (steady : origin.Steady [] holds) (settles : Settles fresh before after)
    (clear : Clear origin template after) : Following origin template current place after where
  toClear := clear
  current node same := (following.current node same).later (following.steady steady) settles
  place node index same := (following.place node index same).later (following.steady steady) settles

variable (steady : origin.Steady [] holds)
include steady

theorem Clear.sheds (clear : Clear origin template before) (settles : Settles fresh before after)
    (sheds : before.Sheds after) : Clear origin template after where
  toUntangled := clear.toUntangled.sheds settles sheds
  loose leaf same :=
    have loose := clear.loose leaf same
    loose.sheds ((settles holds (clear.steady steady)).2.issued loose.issued) sheds

theorem Clear.hangs {parent leaf : NodeId} (clear : Clear origin template before)
    (settles : Settles fresh before after) (loose : before.Loose leaf) (different : leaf ≠ parent)
    (notLeaf : template ≠ some leaf) (notParent : template ≠ some parent)
    (hangs : Hangs parent leaf before after) : Clear origin template after where
  toUntangled := clear.andThen settles (clear.acyclic.hangs loose different hangs)
  loose asked same :=
    have free := clear.loose asked same
    free.hangs ((settles holds (clear.steady steady)).2.issued free.issued) hangs
      (fun equal => notParent (by rw [same, equal])) fun equal => notLeaf (by rw [same, equal])

end

section

variable {table : SymbolTable} {origin : Arena} {holds : NodeId → Nat} {template : Option NodeId}
  (direct : table.registry.Direct) (steady : origin.Steady [] holds)

include direct steady

theorem clear_freshNode {arena : Arena} (clear : Clear origin template arena) (name : String) :
    Clear origin template (freshNode table.registry template name arena).2 ∧
      (freshNode table.registry template name arena).2.Loose
        (freshNode table.registry template name arena).1 ∧
      ¬ arena.Issued (freshNode table.registry template name arena).1 := by
  rcases freshNode_eq direct template name arena with ⟨node, childless, same⟩
  have steadyNow := clear.steady steady
  have placed := Arena.placed_alloc steadyNow.wellFormed childless
  rw [same]
  exact ⟨clear.sheds steady (.alloc arena node) (placed.sheds childless),
    placed.loose childless steadyNow, placed.not_issued⟩

theorem clear_fillUp {parent : NodeId} (index rounds : Nat) {arena : Arena}
    (clear : Clear origin template arena) (apart : Apart template arena parent) :
    Clear origin template (fillUp table.registry template parent index rounds arena) := by
  refine (fillUp_keeps (fun later => Clear origin template later ∧ Apart template later parent) ?_
    rounds ⟨clear, apart⟩).1
  rintro middle filler stored ⟨clearMiddle, apartMiddle⟩ _ made
  rcases clear_freshNode direct steady clearMiddle "" with ⟨built, loose, new⟩
  have settles := settles_freshNode direct.allocates template "" middle
  rw [made] at built loose new settles
  have different : filler ≠ parent := by
    rintro rfl
    exact new apartMiddle.issued
  have notFiller : template ≠ some filler := fun same =>
    new (clearMiddle.loose filler same).issued
  have pushed : Clear origin template (stored.pushChild parent filler).2 :=
    built.hangs steady (.pushChild stored parent filler) loose different notFiller
      apartMiddle.different (Arena.hangs_pushChild parent filler)
  have apartPushed := (apartMiddle.later (clearMiddle.steady steady) settles).later
    (built.steady steady) (.pushChild stored parent filler)
  have freeing := Settles.releaseIfUnowned (stored.pushChild parent filler).2 filler
  split
  · exact ⟨pushed, apartPushed⟩
  · exact ⟨pushed.sheds steady freeing (Arena.sheds_releaseIfUnowned _ _),
      apartPushed.later (pushed.steady steady) freeing⟩

theorem following_makeRoom (parent : NodeId) (index : Nat) {place : Option (NodeId × Nat)} :
    (makeRoom table template parent index).Preserves
      (Following origin template (some parent) place) := by
  apply preserves_makeRoom
  intro arena rounds _ following
  have settles := Settles.ensureChildren arena parent
  have ensured := following.later steady settles
    (following.toClear.sheds steady settles (Arena.sheds_ensureChildren arena parent))
  exact ensured.later steady (settles_fillUp direct.allocates template parent index rounds _)
    (clear_fillUp direct steady index rounds ensured.toClear (ensured.current parent rfl))

omit direct in
theorem Following.child {parent : NodeId} {index : Nat} {place : Option (NodeId × Nat)}
    {arena : Arena} (following : Following origin template (some parent) place arena) :
    Following origin template (arena.child? parent index)
      (if (arena.child? parent index).isSome then some (parent, index) else place) arena where
  toClear := following.toClear
  current node found :=
    have member : node ∈ arena.children parent := Array.mem_of_getElem? found
    ⟨Arena.issued_of_contains ((following.steady steady).child_live member),
      fun same => (following.loose node same).unlisted parent member⟩
  place node other same := by
    split at same
    · cases same
      exact following.current parent rfl
    · exact following.place node other same

theorem following_childAt (create : Bool) (parent : NodeId) (index : Nat)
    {place : Option (NodeId × Nat)} :
    (childAt table create template parent index).Meets
      (Following origin template (some parent) place)
      (fun child => Following origin template child
        (if child.isSome then some (parent, index) else place)) (Clear origin template) :=
  meets_childAt ((following_makeRoom direct steady parent index).mono (fun _ => id)
    fun _ following => following.toClear) fun following => following.child steady

theorem untangled_buildIndices (create : Bool) (start : NodeId) :
    (buildIndices table create template start).Meets
      (Following origin template (some start) none) (fun _ => Untangled origin)
      (Untangled origin) := by
  have followed (rounds : List Char) :=
    (meets_followIndices (Following origin template)
      (fun parent index _ => following_childAt direct steady create parent index)
      (fun following => ⟨following.toClear, nofun, following.place⟩)
      (fun following => following.toClear) rounds (some start) none).mono
      (fun _ => id) fun _ clear => clear.toUntangled
  apply meets_buildIndices (Following origin template) followed _ fun following =>
    following.toUntangled
  intro leaf last parent index arena same following
  -- the template stands in no list, so it is not the parent under which it is put
  have different : leaf ≠ parent := fun equal =>
    (following.place parent index rfl).different (by rw [same, equal])
  exact following.andThen (.setChild arena parent index leaf)
    (following.acyclic.hangs (following.loose leaf same) different
      (Arena.hangs_setChild parent index leaf))

omit direct steady in
theorem Clear.following {arena : Arena} {start : NodeId} (clear : Clear origin template arena)
    (apart : Apart template arena start) :
    Following origin template (some start) none arena where
  toClear := clear
  current _ same := by cases same; exact apart
  place := nofun

omit direct steady in
theorem Untangled.freed (node : NodeId) {arena : Arena} (untangled : Untangled origin arena) :
    Untangled origin (arena.releaseIfUnowned node) :=
  untangled.sheds (.releaseIfUnowned arena node) (Arena.sheds_releaseIfUnowned arena node)

theorem untangled_buildPrimary
    (bound : ∀ key node, table.lookup key = some node → Apart template origin node)
    (create : Bool) :
    (buildPrimary table create template).Meets (Clear origin template)
      (fun _ => Untangled origin) (Untangled origin) := by
  apply keeps_buildPrimary (fun fresh => Following origin template (some fresh) none)
  · exact fun clear => clear.toUntangled
  · intro key node found
    apply (untangled_buildIndices direct steady create node).mono _ fun _ => id
    intro _ clear
    rcases clear.settles with ⟨fresh, settles⟩
    exact clear.following ((bound key node found).later steady settles)
  · intro key arena clear
    rcases clear_freshNode direct steady clear key with ⟨later, loose, new⟩
    exact later.following ⟨loose.issued, fun same => new (clear.loose _ same).issued⟩
  · exact untangled_buildIndices direct steady create
  · exact fun node _ => Untangled.freed node

theorem untangled_buildPath
    (bound : ∀ key node, table.lookup key = some node → Apart template origin node)
    (create : Bool) :
    (buildPath table create template).Meets (Clear origin template)
      (fun _ => Untangled origin) (Untangled origin) :=
  keeps_buildPath (untangled_buildPrimary direct steady bound create)
    (fun node _ => Untangled.freed node) fun name arena untangled =>
      untangled.sheds (settles_internAttr name arena) (sheds_internAttr name arena)

end

end RecordGraph.Path
