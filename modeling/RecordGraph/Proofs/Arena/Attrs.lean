import RecordGraph.Proofs.Arena.Claims
import RecordGraph.Proofs.AttrList

/-!
# Attributes in good order

The table of names and the attribute lists of an arena are in good order from the start, and every
change keeps them so: new nodes, attributes that are set and erased, edits of child lists and the
end of nodes.
-/

namespace RecordGraph

namespace Node

/-- The attributes in order. A missing list counts as an empty one. -/
def entries (node : Node) : List (AttrId × Value) :=
  (node.attrs.map (·.entries)).getD []

def AttrsSound (node : Node) : Prop :=
  ∀ list, node.attrs = some list → list.Sound

variable {node : Node}

theorem attrsSound_of_missing (missing : node.attrs = none) : node.AttrsSound := by
  intro list present
  rw [missing] at present
  cases present

theorem AttrsSound.nodup_entries (sound : node.AttrsSound) : (node.entries.map (·.1)).Nodup := by
  unfold entries
  cases present : node.attrs with
  | none => exact List.nodup_nil
  | some list => exact (sound list present).nodup_entries

theorem AttrsSound.getD (sound : node.AttrsSound) : (node.attrs.getD .empty).Sound := by
  cases present : node.attrs with
  | none => exact AttrList.sound_empty
  | some list => exact sound list present

theorem AttrsSound.setAttr (sound : node.AttrsSound) (id : AttrId) (value : Value) :
    (node.setAttr id value).AttrsSound := by
  intro list same
  rw [Node.setAttr, Option.some.injEq] at same
  rw [← same]
  exact sound.getD.set id value

theorem AttrsSound.ensureAttrs (sound : node.AttrsSound) : node.ensureAttrs.AttrsSound := by
  intro list same
  rw [Node.ensureAttrs, Option.some.injEq] at same
  rw [← same]
  exact sound.getD

theorem AttrsSound.eraseAttr (sound : node.AttrsSound) (id : AttrId) (create : Bool) :
    (node.eraseAttr id create).AttrsSound := by
  unfold Node.eraseAttr
  split
  · rename_i old present
    intro list same
    rw [Option.some.injEq] at same
    rw [← same]
    exact (sound old present).erase id
  · split
    · exact sound.ensureAttrs
    · exact sound

theorem AttrsSound.congr {other : Node} (sound : node.AttrsSound)
    (same : other.attrs = node.attrs) : other.AttrsSound :=
  fun list present => sound list (same ▸ present)

end Node

namespace Arena

structure AttrsSound (arena : Arena) : Prop where
  names : arena.names.Sound
  nodes : ∀ id node owners, arena.live? id = some (node, owners) → node.AttrsSound

theorem attrsSound_empty : Arena.empty.AttrsSound where
  names := NameTable.sound_attributes
  nodes id node owners found := by simp [live?, empty] at found

variable {arena : Arena} (sound : arena.AttrsSound)

include sound

theorem AttrsSound.node {id : NodeId} {node : Node} (found : arena.node? id = some node) :
    node.AttrsSound := by
  rcases Option.map_eq_some_iff.mp found with ⟨content, live, rfl⟩
  exact sound.nodes id content.1 content.2 live

theorem AttrsSound.modifyNode (id : NodeId) {change : Node → Node}
    (keeps : ∀ node, node.AttrsSound → (change node).AttrsSound) :
    (arena.modifyNode id change).AttrsSound where
  names := sound.names
  nodes other node owners found := by
    rw [live?_modifyNode] at found
    split at found
    · rcases Option.map_eq_some_iff.mp found with ⟨content, foundBefore, same⟩
      rw [Prod.mk.injEq] at same
      rw [← same.1]
      exact keeps _ (sound.nodes id content.1 content.2 foundBefore)
    · exact sound.nodes other node owners found

theorem AttrsSound.retain (id : NodeId) : (arena.retain id).AttrsSound where
  names := sound.names
  nodes other node owners found := by
    rw [live?_retain] at found
    split at found
    · rcases Option.map_eq_some_iff.mp found with ⟨content, foundBefore, same⟩
      rw [Prod.mk.injEq] at same
      rw [← same.1]
      exact sound.nodes id content.1 content.2 foundBefore
    · exact sound.nodes other node owners found

theorem AttrsSound.place (wellFormed : arena.WellFormed) {node : Node}
    (nodeSound : node.AttrsSound) : (arena.place node).2.AttrsSound where
  names := (placed_place wellFormed node).names ▸ sound.names
  nodes id other owners found := by
    have placed := placed_place wellFormed node
    by_cases same : id = (arena.place node).1
    · rw [same, placed.live?_same] at found
      cases found
      exact nodeSound
    · rw [placed.live?_other same] at found
      exact sound.nodes id other owners found

theorem AttrsSound.alloc (wellFormed : arena.WellFormed) {node : Node}
    (nodeSound : node.AttrsSound) : (arena.alloc node).2.AttrsSound := by
  have adopted : (arena.adopt node).2.AttrsSound :=
    adopt_induction node sound fun _ child kept => kept.retain child
  have sameAttrs : (arena.adopt node).1.attrs = node.attrs := by
    unfold adopt
    split <;> rfl
  exact adopted.place (wellFormed_adopt wellFormed node) (nodeSound.congr sameAttrs)

theorem AttrsSound.pushChild (parent child : NodeId) :
    (arena.pushChild parent child).2.AttrsSound := by
  unfold Arena.pushChild
  split
  · exact (sound.retain child).modifyNode parent fun node nodeSound =>
      nodeSound.congr (node.attrs_push child)
  · exact sound

theorem AttrsSound.setAttr (id : NodeId) (name : String) (value : Value) :
    (arena.setAttr id name value).AttrsSound := by
  unfold Arena.setAttr
  split
  · split
    · rename_i attr names interned
      have named : ({ arena with names } : Arena).AttrsSound :=
        ⟨(sound.names.intern interned).1, sound.nodes⟩
      exact named.modifyNode id fun node nodeSound => nodeSound.setAttr attr value
    · exact sound
  · exact sound

end Arena
end RecordGraph
