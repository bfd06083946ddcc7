import RecordGraph.Proofs.Arena.Carrying

/-!
# Values of the kinds of their nodes

A node of a storage kind is well typed if its value is one of the variant that the kind stores, or
is absent or missing. Changes that respect kinds leave every node its kind and a well-typed node
well typed, and the nodes that they bring are well typed.
-/

namespace RecordGraph

def Kind.admits : Kind → Value → Bool
  | _, .absent => true
  | .int, .int _ => true
  | .real, .real _ => true
  | .string, .text _ => true
  | .int, _ => false
  | .real, _ => false
  | .string, _ => false
  | _, _ => true

namespace Node

/-- The value of the node, if it has one, is one that its kind stores. -/
def WellTyped (node : Node) : Prop :=
  ∀ value, node.value? = some value → node.kind.admits value = true

variable {node : Node}

theorem wellTyped_of_missing (missing : node.attrs = none) : node.WellTyped := by
  intro value found
  rw [value?, attr?, missing] at found
  cases found

theorem WellTyped.congr {other : Node} (typed : node.WellTyped) (kinds : other.kind = node.kind)
    (attrs : other.attrs = node.attrs) : other.WellTyped := by
  intro value found
  rw [kinds]
  exact typed value (by rwa [value?, attr?, ← attrs])

theorem wellTyped_single {attr : AttrId} {value : Value}
    (attrs : node.attrs = some (.single attr value)) (fits : node.kind.admits value = true) :
    node.WellTyped := by
  intro held found
  rw [value?, attr?, attrs, Option.bind_some] at found
  by_cases own : AttrId.value = attr
  · subst own
    rw [AttrList.single, AttrList.find?_set_same] at found
    cases found
    exact fits
  · rw [AttrList.single, AttrList.find?_set_other _ own, AttrList.find?_empty] at found
    cases found

theorem WellTyped.setAttr (typed : node.WellTyped) (attr : AttrId) {value : Value}
    (fits : node.kind.admits value = true) : (node.setAttr attr value).WellTyped := by
  intro held found
  change node.kind.admits held = true
  by_cases own : AttrId.value = attr
  · subst own
    rw [value?, attr?_setAttr_same] at found
    cases found
    exact fits
  · rw [value?, attr?_setAttr_other _ own] at found
    exact typed held found

structure Respects (node later : Node) : Prop where
  kind : later.kind = node.kind
  wellTyped : node.WellTyped → later.WellTyped

namespace Respects

theorem refl (node : Node) : node.Respects node :=
  ⟨rfl, id⟩

theorem trans {first second third : Node} (left : first.Respects second)
    (right : second.Respects third) : first.Respects third :=
  ⟨right.kind.trans left.kind, right.wellTyped ∘ left.wellTyped⟩

theorem of_same {later : Node} (kinds : later.kind = node.kind) (attrs : later.attrs = node.attrs) :
    node.Respects later :=
  ⟨kinds, fun typed => typed.congr kinds attrs⟩

theorem carried : Carried Node.Respects WellTyped where
  same types attrs := of_same (congrArg NodeType.kind types) attrs
  trans := trans
  fresh := wellTyped

end Respects

end Node

namespace Arena

def WellTyped (arena : Arena) : Prop :=
  ∀ id node, arena.node? id = some node → node.WellTyped

theorem wellTyped_empty : Arena.empty.WellTyped := by
  intro id node found
  simp [node?, live?, empty] at found

structure Respects (before after : Arena) : Prop where
  issued : ∀ {id}, before.Issued id → after.Issued id
  node : ∀ {id node}, after.node? id = some node →
    (∃ earlier, before.node? id = some earlier ∧ earlier.Respects node) ∨
      (¬ before.Issued id ∧ node.WellTyped)

namespace Respects

variable {arena before middle after : Arena}

theorem of_carries (carries : before.Carries Node.Respects Node.WellTyped after) :
    before.Respects after :=
  ⟨carries.issued, carries.node⟩

theorem carries (respects : before.Respects after) :
    before.Carries Node.Respects Node.WellTyped after :=
  ⟨respects.issued, respects.node⟩

theorem refl (arena : Arena) : arena.Respects arena :=
  of_carries (.refl Node.Respects.carried arena)

theorem trans (left : before.Respects middle) (right : middle.Respects after) :
    before.Respects after :=
  of_carries (left.carries.trans Node.Respects.carried right.carries)

theorem wellTyped (respects : before.Respects after) (typed : before.WellTyped) :
    after.WellTyped := by
  intro id node found
  rcases respects.node found with ⟨earlier, known, respected⟩ | ⟨-, new⟩
  · exact respected.wellTyped (typed _ _ known)
  · exact new

theorem of_wanes (wanes : before.Wanes after) : before.Respects after :=
  of_carries (.of_wanes Node.Respects.carried wanes)

theorem names (arena : Arena) (names : NameTable) : arena.Respects { arena with names } :=
  of_carries (.names Node.Respects.carried arena names)

theorem retain (arena : Arena) (id : NodeId) : arena.Respects (arena.retain id) :=
  of_carries (.retain Node.Respects.carried arena id)

theorem releaseIfUnowned (arena : Arena) (id : NodeId) :
    arena.Respects (arena.releaseIfUnowned id) :=
  of_carries (.releaseIfUnowned Node.Respects.carried arena id)

theorem modifyNode {id : NodeId} {change : Node → Node}
    (respects : ∀ {node}, arena.node? id = some node → node.Respects (change node)) :
    arena.Respects (arena.modifyNode id change) :=
  of_carries (.modifyNode Node.Respects.carried respects)

theorem ensureChildren (arena : Arena) (id : NodeId) : arena.Respects (arena.ensureChildren id) :=
  of_carries (.ensureChildren Node.Respects.carried arena id)

theorem pushChild (arena : Arena) (parent child : NodeId) :
    arena.Respects (arena.pushChild parent child).2 :=
  of_carries (.pushChild Node.Respects.carried arena parent child)

theorem setChild (arena : Arena) (parent : NodeId) (index : Nat) (child : NodeId) :
    arena.Respects (arena.setChild parent index child).2 :=
  of_carries (.setChild Node.Respects.carried arena parent index child)

theorem alloc (wellFormed : arena.WellFormed) {node : Node} (childless : node.childArray = #[])
    (typed : node.WellTyped) : arena.Respects (arena.alloc node).2 :=
  of_carries (.alloc Node.Respects.carried wellFormed childless typed)

end Respects

end Arena
end RecordGraph
