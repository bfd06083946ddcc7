import RecordGraph.Proofs.Arena.Claims
import RecordGraph.SymbolTable.Basic

/-!
# Bindings as claims

Each binding of a symbol table is a claim on its node. What is done to the bindings takes and gives
up these claims one for one.
-/

namespace RecordGraph

open RecordGraph.Arena (Accounts Follows)

namespace Bindings

variable (bindings : Bindings) (key : String)

theorem nodup_toList : bindings.toList.Nodup := by
  apply Std.ExtTreeMap.distinct_keys_toList.imp
  rintro first second different rfl
  exact different Std.ReflCmp.compare_self

theorem toList_insert_perm (node : NodeId) :
    (bindings.insert key node).toList.Perm ((key, node) :: (bindings.erase key).toList) := by
  rw [List.perm_ext_iff_of_nodup (nodup_toList _)]
  · rintro ⟨asked, other⟩
    rw [List.mem_cons, Std.ExtTreeMap.mem_toList_iff_getElem?_eq_some,
      Std.ExtTreeMap.mem_toList_iff_getElem?_eq_some, Std.ExtTreeMap.getElem?_insert,
      Std.ExtTreeMap.getElem?_erase]
    by_cases same : asked = key
    · subst same
      simp [eq_comm]
    · simp [same, Ne.symm same]
  · rw [List.nodup_cons]
    refine ⟨fun member => ?_, nodup_toList _⟩
    rw [Std.ExtTreeMap.mem_toList_iff_getElem?_eq_some,
      Std.ExtTreeMap.getElem?_erase_self] at member
    cases member

theorem toList_perm_erase {key : String} {old : NodeId} (found : bindings[key]? = some old) :
    bindings.toList.Perm ((key, old) :: (bindings.erase key).toList) := by
  have again : bindings.insert key old = bindings := by
    apply Std.ExtTreeMap.ext_getElem?
    intro asked
    rw [Std.ExtTreeMap.getElem?_insert]
    by_cases same : key = asked
    · subst same
      simp [found]
    · simp [same]
  have perm := toList_insert_perm bindings key old
  rwa [again] at perm

theorem erase_of_none {key : String} (missing : bindings[key]? = none) :
    bindings.erase key = bindings := by
  apply Std.ExtTreeMap.ext_getElem?
  intro asked
  rw [Std.ExtTreeMap.getElem?_erase]
  by_cases same : key = asked
  · subst same
    simp [missing]
  · simp [same]

end Bindings

namespace SymbolTable

def bindingCount (table : SymbolTable) (id : NodeId) : Nat :=
  (table.bindings.toList.map (·.2)).count id

variable {table : SymbolTable} {arena : Arena} {others : NodeId → Nat} {key : String}

theorem bindingCount_of_empty (empty : table.bindings = ∅) (id : NodeId) :
    table.bindingCount id = 0 := by
  have none : (∅ : Bindings).toList = [] := Std.ExtTreeMap.toList_eq_nil_iff.mpr rfl
  rw [bindingCount, empty, none, List.map_nil, List.count_nil]

theorem bindingCount_insert (node id : NodeId) :
    SymbolTable.bindingCount { table with bindings := table.bindings.insert key node } id =
      SymbolTable.bindingCount { table with bindings := table.bindings.erase key } id +
        [node].count id := by
  unfold bindingCount
  rw [((Bindings.toList_insert_perm table.bindings key node).map _).count_eq]
  simp [List.count_cons]

theorem bindingCount_erase {old : NodeId} (found : table.lookup key = some old) (id : NodeId) :
    table.bindingCount id =
      SymbolTable.bindingCount { table with bindings := table.bindings.erase key } id +
        [old].count id := by
  unfold bindingCount
  rw [((Bindings.toList_perm_erase table.bindings found).map _).count_eq]
  simp [List.count_cons]

theorem bindingCount_erase_missing (missing : table.lookup key = none) (id : NodeId) :
    SymbolTable.bindingCount { table with bindings := table.bindings.erase key } id =
      table.bindingCount id := by
  rw [Bindings.erase_of_none table.bindings missing]

theorem bindingCount_pos {node : NodeId} (found : table.lookup key = some node) :
    0 < table.bindingCount node := by
  rw [bindingCount_erase found]
  simp

theorem lookup_define (table : SymbolTable) (arena : Arena) (key : String) (node : NodeId) :
    (table.define arena key node).1.lookup key = some node := by
  unfold define
  simp only
  split
  · assumption
  · simp [lookup]

theorem lookup_define_other (table : SymbolTable) (arena : Arena) {key asked : String}
    (different : asked ≠ key) (node : NodeId) :
    (table.define arena key node).1.lookup asked = table.lookup asked := by
  unfold define
  simp only
  split
  · rfl
  · simp [lookup, Std.ExtTreeMap.getElem?_insert, different.symm]

theorem bindingCount_given {old : NodeId} (found : table.lookup key = some old) (id : NodeId) :
    table.bindingCount id + others id =
      SymbolTable.bindingCount { table with bindings := table.bindings.erase key } id +
        others id + [old].count id := by
  rw [bindingCount_erase found]
  omega

theorem bindingCount_exchange {old : NodeId} (found : table.lookup key = some old)
    (node id : NodeId) :
    table.bindingCount id + others id + [node].count id =
      SymbolTable.bindingCount { table with bindings := table.bindings.insert key node } id +
        others id + [old].count id := by
  rw [bindingCount_insert, bindingCount_erase found]
  omega

theorem accounts_define
    (accounts : arena.Accounts fun id => table.bindingCount id + others id) (key : String)
    {node : NodeId} (issued : arena.Issued node) :
    ((table.define arena key node).2.Accounts fun id =>
        (table.define arena key node).1.bindingCount id + others id) ∧
      Follows [] arena (table.define arena key node).2 := by
  unfold define
  simp only
  split
  · exact ⟨accounts, .refl arena⟩
  · have retained := accounts.claim issued fun other => rfl
    have follows := Arena.follows_retain arena node
    split
    · rename_i old found
      obtain ⟨released, wanes⟩ := retained.unclaim (bindingCount_exchange found node)
      exact ⟨released, follows.trans wanes⟩
    · rename_i missing
      refine ⟨retained.congr fun other => ?_, follows⟩
      rw [bindingCount_insert, bindingCount_erase_missing missing]
      omega

theorem contains_define_of_claimed
    (accounts : arena.Accounts fun id => table.bindingCount id + others id) (key : String)
    (node : NodeId) {id : NodeId}
    (claimed : 0 < (table.define arena key node).1.bindingCount id + others id)
    (live : arena.contains id = true) : (table.define arena key node).2.contains id = true := by
  have stays : (arena.retain node).contains id = true := by rwa [Arena.contains_retain]
  unfold define at claimed ⊢
  simp only at claimed ⊢
  split
  · exact live
  · rename_i new
    rw [if_neg new] at claimed
    split
    · rename_i old found
      cases nodeLive : arena.contains node with
      | true =>
        have retained := accounts.claim (Arena.issued_of_contains nodeLive) fun other => rfl
        exact retained.held_release (bindingCount_exchange found node) claimed stays
      | false =>
        -- the new binding is to a node that is gone, so it is not the claim on this one
        have different : node ≠ id := by
          rintro rfl
          rw [live] at nodeLive
          cases nodeLive
        rw [bindingCount_insert, List.count_cons_of_ne different, List.count_nil] at claimed
        rw [Arena.retain_of_stale (Arena.live?_of_not_contains nodeLive)]
        exact accounts.held_release (bindingCount_given found) claimed live
    · exact stays

theorem contains_define (accounts : arena.Accounts fun id => table.bindingCount id + others id)
    (key : String) (node : NodeId) {id : NodeId} (claimed : 0 < others id)
    (live : arena.contains id = true) : (table.define arena key node).2.contains id = true :=
  contains_define_of_claimed accounts key node (Nat.add_pos_right _ claimed) live

theorem accounts_undefine
    (accounts : arena.Accounts fun id => table.bindingCount id + others id) (key : String) :
    ((table.undefine arena key).2.Accounts fun id =>
        (table.undefine arena key).1.bindingCount id + others id) ∧
      Follows [] arena (table.undefine arena key).2 := by
  unfold undefine
  split
  · rename_i old found
    exact accounts.unclaim (bindingCount_given found)
  · exact ⟨accounts, .refl arena⟩

theorem count_cons_add (node : NodeId) (nodes : List NodeId) (id : NodeId) :
    (node :: nodes).count id + others id = nodes.count id + others id + [node].count id := by
  simp only [List.count_cons, List.count_nil]
  omega

theorem accounts_releaseAll {nodes : List NodeId}
    (accounts : arena.Accounts fun id => nodes.count id + others id) :
    (nodes.foldl Arena.release arena).Accounts others ∧
      Follows [] arena (nodes.foldl Arena.release arena) := by
  induction nodes generalizing arena with
  | nil => exact ⟨accounts.congr fun id => by simp, .refl arena⟩
  | cons node nodes induction =>
    obtain ⟨released, follows⟩ := accounts.unclaim (count_cons_add node nodes)
    obtain ⟨done, rest⟩ := induction released
    exact ⟨done, follows.trans rest⟩

theorem contains_releaseAll {nodes : List NodeId}
    (accounts : arena.Accounts fun id => nodes.count id + others id) {id : NodeId}
    (claimed : 0 < others id) (live : arena.contains id = true) :
    (nodes.foldl Arena.release arena).contains id = true := by
  induction nodes generalizing arena with
  | nil => exact live
  | cons node nodes induction =>
    exact induction (accounts.unclaim (count_cons_add node nodes)).1
      (accounts.held_release (count_cons_add node nodes) (Nat.add_pos_right _ claimed) live)

theorem accounts_retainAll {claims : NodeId → Nat} {nodes : List NodeId}
    (accounts : arena.Accounts claims) (issued : ∀ node ∈ nodes, arena.Issued node) :
    (nodes.foldl Arena.retain arena).Accounts fun id => nodes.count id + claims id := by
  induction nodes generalizing arena claims with
  | nil => exact accounts.congr fun id => by simp
  | cons node nodes induction =>
    have retained := accounts.claim (issued node (List.mem_cons_self ..)) fun other => rfl
    refine (induction retained fun other member => ?_).congr fun id => ?_
    · exact (Arena.follows_retain arena node).issued (issued other (List.mem_cons_of_mem _ member))
    · simp only [List.count_cons, List.count_nil]
      omega

theorem accounts_clear (accounts : arena.Accounts fun id => table.bindingCount id + others id) :
    ((table.clear arena).2.Accounts fun id => (table.clear arena).1.bindingCount id + others id) ∧
      Follows [] arena (table.clear arena).2 := by
  unfold clear
  simp only [← List.foldl_map]
  obtain ⟨released, follows⟩ := accounts_releaseAll accounts
  refine ⟨released.congr fun id => ?_, follows⟩
  rw [bindingCount_of_empty rfl, Nat.zero_add]

theorem contains_clear (accounts : arena.Accounts fun id => table.bindingCount id + others id)
    {id : NodeId} (claimed : 0 < others id) (live : arena.contains id = true) :
    (table.clear arena).2.contains id = true := by
  unfold clear
  simp only [← List.foldl_map]
  exact contains_releaseAll accounts claimed live

theorem accounts_fork (accounts : arena.Accounts fun id => table.bindingCount id + others id) :
    ((table.fork arena).2.Accounts fun id =>
        (table.fork arena).1.bindingCount id + (table.bindingCount id + others id)) ∧
      Follows [] arena (table.fork arena).2 := by
  unfold fork
  simp only [← List.foldl_map]
  refine ⟨accounts_retainAll accounts fun node member => accounts.issued ?_,
    Arena.follows_retainAll arena _⟩
  exact Nat.add_pos_left (List.count_pos_iff.mpr member) _

end SymbolTable
end RecordGraph
