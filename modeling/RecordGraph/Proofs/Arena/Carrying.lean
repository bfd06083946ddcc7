import RecordGraph.Proofs.Arena.Claims

/-!
# What nodes carry through changes

The type and the attributes of a node are not touched where nodes are linked, owned and given up. So
whatever is known to relate a node to what it was, and depends on these alone, holds along every
such change, for the nodes that are still there.
-/

namespace RecordGraph

/-- A relation of a node to what it was, and a property of new nodes that it keeps. A node of the
same type with the same attributes is related. -/
structure Node.Carried (kept : Node → Node → Prop) (fresh : Node → Prop) : Prop where
  same : ∀ {node later : Node}, later.nodeType = node.nodeType → later.attrs = node.attrs →
    kept node later
  trans : ∀ {first second third : Node}, kept first second → kept second third → kept first third
  fresh : ∀ {node later : Node}, kept node later → fresh node → fresh later

namespace Arena

structure Carries (kept : Node → Node → Prop) (fresh : Node → Prop) (before after : Arena) :
    Prop where
  issued : ∀ {id}, before.Issued id → after.Issued id
  node : ∀ {id node}, after.node? id = some node →
    (∃ earlier, before.node? id = some earlier ∧ kept earlier node) ∨
      (¬ before.Issued id ∧ fresh node)

namespace Carries

variable {kept : Node → Node → Prop} {fresh : Node → Prop} (carried : Node.Carried kept fresh)
  {arena before middle after : Arena}

include carried

theorem trans (left : before.Carries kept fresh middle) (right : middle.Carries kept fresh after) :
    before.Carries kept fresh after where
  issued := right.issued ∘ left.issued
  node found := by
    rcases right.node found with ⟨between, foundBetween, related⟩ | ⟨new, tested⟩
    · rcases left.node foundBetween with ⟨earlier, foundEarlier, relation⟩ | ⟨new, tested⟩
      · exact .inl ⟨earlier, foundEarlier, carried.trans relation related⟩
      · exact .inr ⟨new, carried.fresh related tested⟩
    · exact .inr ⟨fun issued => new (left.issued issued), tested⟩

theorem of_kept (issued : ∀ {id}, before.Issued id → after.Issued id)
    (same : ∀ {id node}, after.node? id = some node → before.node? id = some node) :
    before.Carries kept fresh after :=
  ⟨issued, fun {_ node} found => .inl ⟨node, same found, carried.same rfl rfl⟩⟩

theorem refl (arena : Arena) : arena.Carries kept fresh arena :=
  of_kept carried id id

theorem of_wanes (wanes : before.Wanes after) : before.Carries kept fresh after := by
  refine of_kept carried wanes.issued fun {id node} found => ?_
  rcases Option.map_eq_some_iff.mp found with ⟨content, live, rfl⟩
  rcases wanes.live live with ⟨earlier, known, -⟩
  rw [node?, known, Option.map_some]

theorem names (arena : Arena) (names : NameTable) :
    arena.Carries kept fresh { arena with names } :=
  of_kept carried id id

theorem retain (arena : Arena) (id : NodeId) : arena.Carries kept fresh (arena.retain id) :=
  of_kept carried (follows_retain arena id).issued fun found => by rwa [node?_retain] at found

theorem releaseIfUnowned (arena : Arena) (id : NodeId) :
    arena.Carries kept fresh (arena.releaseIfUnowned id) :=
  of_wanes carried (wanes_releaseIfUnowned arena id)

theorem modifyNode {id : NodeId} {change : Node → Node}
    (related : ∀ {node}, arena.node? id = some node → kept node (change node)) :
    arena.Carries kept fresh (arena.modifyNode id change) where
  issued := (follows_modifyNode arena id change).issued
  node {other node} found := by
    rw [node?, live?_modifyNode] at found
    split at found
    · rename_i same
      subst same
      rw [Option.map_map] at found
      rcases Option.map_eq_some_iff.mp found with ⟨content, live, rfl⟩
      have known : arena.node? other = some content.1 := by rw [node?, live, Option.map_some]
      exact .inl ⟨content.1, known, related known⟩
    · exact .inl ⟨node, found, carried.same rfl rfl⟩

theorem ensureChildren (arena : Arena) (id : NodeId) :
    arena.Carries kept fresh (arena.ensureChildren id) :=
  modifyNode carried fun {node} _ =>
    carried.same node.nodeType_ensureChildren node.attrs_ensureChildren

theorem pushChild (arena : Arena) (parent child : NodeId) :
    arena.Carries kept fresh (arena.pushChild parent child).2 := by
  unfold Arena.pushChild
  split
  · have pushed : (arena.retain child).Carries kept fresh
        ((arena.retain child).modifyNode parent (·.push child)) :=
      modifyNode carried fun {node} _ =>
        carried.same (node.nodeType_push child) (node.attrs_push child)
    exact (retain carried arena child).trans carried pushed
  · exact refl carried arena

theorem setChild (arena : Arena) (parent : NodeId) (index : Nat) (child : NodeId) :
    arena.Carries kept fresh (arena.setChild parent index child).2 := by
  rcases setChild_cases arena parent index child with same | ⟨-, same⟩ | ⟨old, -, -, same⟩
  · rw [same]
    exact refl carried arena
  · rw [same]
    exact pushChild carried arena parent child
  · rw [same]
    have exchanged : (arena.retain child).Carries kept fresh (arena.exchanged parent index child) :=
      modifyNode carried fun _ => carried.same rfl rfl
    exact ((retain carried arena child).trans carried exchanged).trans carried
      (of_wanes carried (wanes_release _ old))

theorem alloc (wellFormed : arena.WellFormed) {node : Node} (childless : node.childArray = #[])
    (tested : fresh node) : arena.Carries kept fresh (arena.alloc node).2 where
  issued := (placed_alloc wellFormed childless).issued
  node {id other} found := by
    have placed := placed_alloc wellFormed childless
    by_cases same : id = (arena.alloc node).1
    · rw [same, node?, placed.live?_same, Option.map_some, Option.some.injEq] at found
      rw [same, ← found]
      exact .inr ⟨placed.not_issued, tested⟩
    · rw [node?, placed.live?_other same] at found
      exact .inl ⟨other, found, carried.same rfl rfl⟩

end Carries

/-! ## Attributes that are spared -/

theorem names_pushChild (arena : Arena) (parent child : NodeId) :
    (arena.pushChild parent child).2.names = arena.names := by
  unfold pushChild
  split <;> rfl

theorem names_setChild (arena : Arena) (parent : NodeId) (index : Nat) (child : NodeId) :
    (arena.setChild parent index child).2.names = arena.names := by
  rcases setChild_cases arena parent index child with same | ⟨-, same⟩ | ⟨old, -, -, same⟩
  · rw [same]
  · rw [same, names_pushChild]
  · rw [same]
    exact (wanes_release _ old).names

theorem carried_attrs :
    Node.Carried (fun node later => later.attrs = node.attrs) fun _ => True where
  same _ attrs := attrs
  trans left right := right.trans left
  fresh _ := id

structure Spares (before after : Arena) : Prop where
  carries : before.Carries (fun node later => later.attrs = node.attrs) (fun _ => True) after
  name : ∀ {text attr}, before.names.query text = some attr → after.names.query text = some attr

namespace Spares

variable {arena before middle after : Arena}

theorem of_names
    (carries : before.Carries (fun node later => later.attrs = node.attrs) (fun _ => True) after)
    (names : after.names = before.names) : before.Spares after :=
  ⟨carries, fun known => by rwa [names]⟩

theorem refl (arena : Arena) : arena.Spares arena :=
  of_names (.refl carried_attrs arena) rfl

theorem trans (left : before.Spares middle) (right : middle.Spares after) : before.Spares after :=
  ⟨left.carries.trans carried_attrs right.carries, right.name ∘ left.name⟩

theorem of_wanes (wanes : before.Wanes after) : before.Spares after :=
  of_names (.of_wanes carried_attrs wanes) wanes.names

theorem names (arena : Arena) {names : NameTable}
    (kept : ∀ {text attr}, arena.names.query text = some attr → names.query text = some attr) :
    arena.Spares { arena with names } :=
  ⟨.names carried_attrs arena names, kept⟩

theorem retain (arena : Arena) (id : NodeId) : arena.Spares (arena.retain id) :=
  of_names (.retain carried_attrs arena id) rfl

theorem releaseIfUnowned (arena : Arena) (id : NodeId) : arena.Spares (arena.releaseIfUnowned id) :=
  of_wanes (wanes_releaseIfUnowned arena id)

theorem modifyNode (arena : Arena) (id : NodeId) {change : Node → Node}
    (kept : ∀ node, (change node).attrs = node.attrs) : arena.Spares (arena.modifyNode id change) :=
  of_names (.modifyNode carried_attrs fun {node} _ => kept node) rfl

theorem ensureChildren (arena : Arena) (id : NodeId) : arena.Spares (arena.ensureChildren id) :=
  of_names (.ensureChildren carried_attrs arena id) rfl

theorem pushChild (arena : Arena) (parent child : NodeId) :
    arena.Spares (arena.pushChild parent child).2 :=
  of_names (.pushChild carried_attrs arena parent child) (names_pushChild arena parent child)

theorem setChild (arena : Arena) (parent : NodeId) (index : Nat) (child : NodeId) :
    arena.Spares (arena.setChild parent index child).2 :=
  of_names (.setChild carried_attrs arena parent index child)
    (names_setChild arena parent index child)

theorem attrById? (spares : before.Spares after) {id : NodeId} (issued : before.Issued id)
    (live : after.contains id = true) (attr : AttrId) :
    after.attrById? id attr = before.attrById? id attr := by
  rcases contains_iff.mp live with ⟨node, owners, standing⟩
  have found : after.node? id = some node := by rw [node?, standing, Option.map_some]
  rcases spares.carries.node found with ⟨earlier, known, same⟩ | ⟨new, -⟩
  · rw [Arena.attrById?, Arena.attrById?, found, known, Option.bind_some, Option.bind_some,
      Node.attr?, Node.attr?, same]
  · exact absurd issued new

end Spares
end Arena
end RecordGraph
