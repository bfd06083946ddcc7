import RecordGraph.Proofs.Document.Forests

/-!
# Documents of unfoldings

The writer keeps the slots of the open nodes. Ids of live nodes with one slot are equal, so a block
is left out exactly where the unfolding ends. Every structure is written to its end, because the
nodes that are not open yet are fewer than the levels. If no child is stale, the writer puts on the
page what is written of the unfolding.
-/

namespace RecordGraph

namespace Document
open Text

/-! ## Records -/

section

variable {arena : Arena} (layout : Layout) {node : Node}

theorem keyText_eq (sound : arena.names.Sound) (id : AttrId) :
    keyText arena id = writtenKey ((arena.names.lookup id).getD "") := by
  by_cases default : id = .value
  · subst default
    rw [sound.lookup_value]
    rfl
  · rw [keyText, if_neg default, writtenKey, if_neg]
    intro same
    cases found : arena.names.lookup id with
    | none => simp [found] at same
    | some key =>
      rw [found, Option.getD_some] at same
      exact default (sound.lookup_inj (same ▸ found) sound.lookup_value)

theorem impliesBase_eq (node : Node) (names : NameTable) :
    impliesBase node = (node.nodeType.kind == .base &&
      infersBase node.name ((node.namedAttrs names).head?.map (·.2))) := by
  have first : (node.namedAttrs names).head?.map (·.2) =
      (node.attrs.bind (·.entries.head?)).map (·.2) := by
    rw [Node.namedAttrs, List.head?_map, Option.map_map, Node.entries]
    cases node.attrs <;> rfl
  rw [impliesBase, first, inferKind]
  congr 1
  cases node.attrs.bind (·.entries.head?) with
  | none => by_cases nameless : node.name = "" <;> simp [nameless, infersBase]
  | some entry =>
    rcases entry with ⟨id, value⟩
    cases value <;> rfl

theorem writeRecord_eq (sound : arena.names.Sound) (registry : Registry) (level : Nat) (node : Node)
    (page : Page) :
    writeRecord arena registry layout level node page =
      writeHead registry layout level node.name node.nodeType (node.namedAttrs arena.names)
        page := by
  have entries : (node.attrs.map (·.entries)).getD [] = node.entries := rfl
  have attrs (mark : Nat) (page : Page) :
      node.entries.foldl (writeAttr arena layout mark) page =
        (node.namedAttrs arena.names).foldl (writePair layout mark) page := by
    rw [Node.namedAttrs, List.foldl_map]
    congr 1
    funext page entry
    rw [writeAttr, writePair, keyText_eq sound]
  rw [writeRecord, writeHead, typePart, impliesBase_eq node arena.names, typeMark, entries]
  simp only [attrs]

theorem nodeType_eq (untagged : node.nodeType.tag = 0) : node.nodeType = .ofKind node.kind := by
  unfold NodeType.ofKind Node.kind
  rw [← untagged]

theorem holds_of_writable (sound : arena.names.Sound) (writable : node.Writable arena.names) :
    Holds Value.Writable node.name (node.namedAttrs arena.names) where
  isName := writable.isName
  isKey attr member := by
    rcases List.mem_map.mp member with ⟨⟨id, value⟩, among, rfl⟩
    rcases writable.keys (id, value) among with ⟨key, found, isKey⟩
    rw [← keyText_eq sound]
    by_cases default : id = .value
    · rw [keyText, if_pos default]
      exact List.forall_mem_nil _
    · rw [keyText, if_neg default, found]
      exact isKey default
  values attr member := by
    rcases List.mem_map.mp member with ⟨entry, among, rfl⟩
    exact writable.values entry among

theorem keysAmong_namedAttrs (sound : arena.names.Sound)
    (known : ∀ entry ∈ node.entries, ∃ key, arena.names.lookup entry.1 = some key)
    (distinct : (node.entries.map (·.1)).Nodup) :
    KeysAmong arena.names.texts (node.namedAttrs arena.names) := by
  have named {attr : String × Value} (member : attr ∈ node.namedAttrs arena.names) :
      ∃ id, arena.names.lookup id = some attr.1 := by
    rcases List.mem_map.mp member with ⟨entry, among, rfl⟩
    rcases known entry among with ⟨key, found⟩
    exact ⟨entry.1, by simp [found]⟩
  refine ⟨?_, fun attr member => NameTable.mem_texts.mpr (named member), fun attr member => ?_⟩
  · have keys : (node.namedAttrs arena.names).map (·.1) =
        (node.entries.map (·.1)).map fun id => (arena.names.lookup id).getD "" := by
      simp [Node.namedAttrs]
    rw [keys]
    apply List.Nodup.map_on _ distinct
    intro id member other memberOther same
    rcases List.mem_map.mp member with ⟨entry, among, rfl⟩
    rcases List.mem_map.mp memberOther with ⟨otherEntry, amongOther, rfl⟩
    rcases known entry among with ⟨key, found⟩
    rcases known otherEntry amongOther with ⟨otherKey, foundOther⟩
    simp only [found, foundOther, Option.getD_some] at same
    exact sound.lookup_inj found (same ▸ foundOther)
  · rcases named member with ⟨id, found⟩
    rw [← sound.fold_eq]
    exact (sound.named id attr.1 found).2

end

/-! ## Nodes -/

structure Tracks (arena : Arena) (blocks : Std.ExtTreeSet Nat) (path : List NodeId) : Prop where
  live : ∀ id ∈ path, arena.contains id = true
  slots : ∀ index, blocks.contains index = true ↔ ∃ id ∈ path, id.index = index

section

variable {arena : Arena} {blocks : Std.ExtTreeSet Nat} {path : List NodeId} {id : NodeId}
  (tracks : Tracks arena blocks path)

include tracks

theorem Tracks.contains_iff (live : arena.contains id = true) :
    blocks.contains id.index = true ↔ id ∈ path := by
  rw [tracks.slots]
  constructor
  · rintro ⟨other, member, same⟩
    rwa [← Arena.eq_of_index_eq (tracks.live other member) live same]
  · exact fun member => ⟨id, member, rfl⟩

theorem Tracks.insert (live : arena.contains id = true) :
    Tracks arena (blocks.insert id.index) (id :: path) where
  live := List.forall_mem_cons.mpr ⟨live, tracks.live⟩
  slots index := by
    rw [Std.ExtTreeSet.contains_insert, Bool.or_eq_true, tracks.slots, beq_iff_eq,
      Nat.compare_eq_eq]
    simp

end

theorem Writes.foldl {texts : Finset String} {write : Page → NodeId → Page}
    {tree : NodeId → Option Tree} {ids : List NodeId}
    (writes : ∀ id ∈ ids, Writes texts (fun page => write page id) (tree id).toList) :
    Writes texts (fun page => ids.foldl write page) (ids.filterMap tree) := by
  induction ids with
  | nil => exact .nothing
  | cons id ids induction =>
    have first := writes id List.mem_cons_self
    have rest := induction fun other member => writes other (List.mem_cons_of_mem _ member)
    have both := first.andThen rest
    cases present : tree id <;> simpa [present] using both

section

variable {arena : Arena} {layout : Layout} {root : NodeId} (sound : arena.AttrsSound)
  (writable : ∀ id node, arena.Below root id → arena.node? id = some node →
    node.Writable arena.names)

include sound writable

theorem writes_writeNode {levels : Nat} {blocks : Std.ExtTreeSet Nat} {path : List NodeId}
    (tracks : Tracks arena blocks path) (enough : arena.unopened path < levels) {id : NodeId}
    (below : arena.Below root id) (level : Nat) :
    Writes arena.names.texts
      (fun page => writeNode arena .standard layout levels blocks level page id)
      (arena.unfold path id).toList := by
  -- each level opens a node, and there are more levels than nodes to open
  induction levels generalizing blocks path id level with
  | zero => cases enough
  | succ levels induction =>
    simp only [writeNode]
    cases found : arena.node? id with
    | none =>
      rw [Arena.unfold_stale found]
      exact .nothing
    | some node =>
      have live := Arena.contains_of_node? found
      have fine := writable id node below found
      have holds := holds_of_writable sound.names fine
      have known : ∀ entry ∈ node.entries, ∃ key, arena.names.lookup entry.1 = some key :=
        fun entry member => (fine.keys entry member).imp fun _ => And.left
      have keys := keysAmong_namedAttrs sound.names known (sound.node found).nodup_entries
      have leaf := writes_leaf layout keys holds node.kind level
      rw [Arena.unfold_live found, Option.toList_some, nodeType_eq fine.untagged]
      simp only [Bool.or_eq_true, tracks.contains_iff live, writeRecord_eq layout sound.names,
        nodeType_eq fine.untagged]
      by_cases opened : id ∈ path
      · simpa only [opened, or_true, ↓reduceIte] using leaf
      · cases empty : node.childArray.isEmpty with
        | true =>
          have children : node.childArray.toList = [] := by simpa using empty
          simpa only [opened, children, List.filterMap_nil, true_or, ↓reduceIte] using leaf
        | false =>
          have fewer := Arena.unopened_cons_lt found opened
          have inside : ∀ child ∈ node.childArray.toList, Writes arena.names.texts
              (fun page => writeNode arena .standard layout levels (blocks.insert id.index)
                (level + layout.indent) page child)
              (arena.unfold (id :: path) child).toList := fun child member =>
            induction (tracks.insert live) (by omega)
              (below.deeper (Arena.children_of_node? found ▸ Array.mem_toList_iff.mp member))
              (level + layout.indent)
          simp only [opened, Bool.false_eq_true, or_self, ↓reduceIte, ← Array.foldl_toList]
          have block := writes_block layout keys holds node.kind level (Writes.foldl inside)
          exact block

theorem forestText_childrenText :
    ForestText arena.names.texts (arena.unfoldChildren root)
      (childrenText arena .standard layout root).toList := by
  have tracks : arena.contains root = true →
      Tracks arena ((∅ : Std.ExtTreeSet Nat).insert root.index) [root] := fun live =>
    Tracks.insert ⟨nofun, by simp⟩ live
  have writes : Writes arena.names.texts
      (fun page => (arena.children root).toList.foldl
        (writeNode arena .standard layout (levels arena)
          ((∅ : Std.ExtTreeSet Nat).insert root.index) 0) page)
      (arena.unfoldChildren root) := by
    apply Writes.foldl
    intro id member
    have child : id ∈ arena.children root := Array.mem_toList_iff.mp member
    have live : arena.contains root = true := by
      cases found : arena.live? root with
      | none => simp [Arena.children_of_stale found] at child
      | some content => exact Arena.contains_iff.mpr ⟨content.1, content.2, found⟩
    have enough := arena.unopened_le_size [root]
    exact writes_writeNode sound writable (tracks live) (Nat.lt_succ_of_le enough) (.child child) 0
  have forest := writes.forestText
  rw [childrenText, ← Array.foldl_toList]
  exact forest

end

/-! ## The text of an unfolding -/

section

variable {arena : Arena} (registry : Registry) (layout : Layout) (sound : arena.names.Sound)
  (live : ∀ parent child, child ∈ arena.children parent → arena.contains child = true)

include sound live

theorem writeNode_eq {levels : Nat} {blocks : Std.ExtTreeSet Nat} {path : List NodeId}
    (tracks : Tracks arena blocks path) (enough : arena.unopened path < levels) (id : NodeId)
    (level : Nat) (page : Page) :
    writeNode arena registry layout levels blocks level page id =
      writeForest registry layout level (arena.unfold path id).toList page := by
  induction levels generalizing blocks path id level page with
  | zero => cases enough
  | succ levels induction =>
    simp only [writeNode]
    cases found : arena.node? id with
    | none =>
      rw [Arena.unfold_stale found]
      simp only [Option.toList_none, writeForest]
    | some node =>
      have alive := Arena.contains_of_node? found
      rw [Arena.unfold_live found, Option.toList_some]
      simp only [writeForest, writeRecord_eq layout sound, Bool.or_eq_true,
        tracks.contains_iff alive]
      by_cases opened : id ∈ path
      · simp [opened]
      · have fewer := Arena.unopened_cons_lt found opened
        have written : (fun page child => writeNode arena registry layout levels
            (blocks.insert id.index) (level + layout.indent) page child) =
            fun page child => writeForest registry layout (level + layout.indent)
              (arena.unfold (id :: path) child).toList page := by
          funext page child
          exact induction (tracks.insert alive) (by omega) child (level + layout.indent) page
        have empty : (node.childArray.toList.filterMap (arena.unfold (id :: path))).isEmpty =
            node.childArray.isEmpty := by
          cases ids : node.childArray.toList with
          | nil => simp_all
          | cons child others =>
            have member : child ∈ arena.children id := by
              rw [Arena.children_of_node? found, ← Array.mem_toList_iff, ids]
              exact List.mem_cons_self
            rcases Arena.contains_iff.mp (live id child member) with ⟨content, owners, stands⟩
            have standing : arena.node? child = some content := by
              rw [Arena.node?, stands, Option.map_some]
            have some : node.childArray.isEmpty = false := by
              rw [← Array.isEmpty_toList, ids, List.isEmpty_cons]
            rw [List.filterMap_cons, Arena.unfold_live standing, List.isEmpty_cons, some]
        simp only [opened, or_false, ↓reduceIte, empty, ← Array.foldl_toList, written,
          foldl_writeForest, writeBlock]

theorem childrenText_eq (root : NodeId) :
    childrenText arena registry layout root =
      (writeForest registry layout 0 (arena.unfoldChildren root) .blank).text := by
  cases stands : arena.contains root with
  | false =>
    have nothing : arena.children root = #[] :=
      Arena.children_of_stale (Arena.live?_of_not_contains stands)
    simp [childrenText, Arena.unfoldChildren, nothing, writeForest]
  | true =>
    have tracks : Tracks arena ((∅ : Std.ExtTreeSet Nat).insert root.index) [root] :=
      Tracks.insert ⟨List.forall_mem_nil _, by simp⟩ stands
    have written : (fun page child => writeNode arena registry layout (levels arena)
        ((∅ : Std.ExtTreeSet Nat).insert root.index) 0 page child) =
        fun page child =>
          writeForest registry layout 0 (arena.unfold [root] child).toList page := by
      funext page child
      exact writeNode_eq registry layout sound live tracks
        (Nat.lt_succ_of_le (arena.unopened_le_size [root])) child 0 page
    simp only [childrenText, ← Array.foldl_toList, written, foldl_writeForest,
      Arena.unfoldChildren]

end

/-! ## The forest of an unfolding -/

section

variable {arena : Arena} {root : NodeId} {possible : Value → Prop} (sound : arena.AttrsSound)
  (untagged : ∀ id node, arena.Below root id → arena.node? id = some node → node.nodeType.tag = 0)
  (known : ∀ id node, arena.Below root id → arena.node? id = some node →
    ∀ entry ∈ node.entries, ∃ key, arena.names.lookup entry.1 = some key)
  (holds : ∀ id node, arena.Below root id → arena.node? id = some node →
    Holds possible node.name (node.namedAttrs arena.names))

include sound untagged known holds

theorem forest_unfold {path : List NodeId} {id : NodeId} (below : arena.Below root id) :
    Forest arena.names.texts possible (arena.unfold path id).toList := by
  -- the nodes that are not open become fewer on the way down
  induction height : arena.unopened path using Nat.strongRecOn generalizing path id with
  | ind height induction =>
    cases found : arena.node? id with
    | none =>
      rw [Arena.unfold_stale found]
      exact .nil
    | some node =>
      have type := nodeType_eq (untagged id node below found)
      have keys := keysAmong_namedAttrs sound.names (known id node below found)
        (sound.node found).nodup_entries
      rw [Arena.unfold_live found, Option.toList_some, type]
      refine .cons node.kind keys (holds id node below found) ?_ .nil
      split
      · exact .nil
      · rename_i closed
        have fewer := Arena.unopened_cons_lt found closed
        have inside : ∀ child ∈ node.childArray.toList,
            Forest arena.names.texts possible (arena.unfold (id :: path) child).toList :=
          fun child member => induction _ (height ▸ fewer)
            (below.deeper (Arena.children_of_node? found ▸ Array.mem_toList_iff.mp member)) rfl
        exact Forest.filterMap inside

theorem forest_unfoldChildren : Forest arena.names.texts possible (arena.unfoldChildren root) :=
  Forest.filterMap fun _ member =>
    forest_unfold sound untagged known holds (.child (Array.mem_toList_iff.mp member))

end

end Document
end RecordGraph
