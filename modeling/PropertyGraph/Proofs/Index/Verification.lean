import PropertyGraph.Proofs.Action
import PropertyGraph.Proofs.Index.Agreement

/-!
# What the check of the indexes accepts

The check rebuilds from a list of nodes what an index has to file, sorts both
sides by node and compares them position by position. Whatever an index holds and
however it came to hold it, the check finds nothing wrong with it exactly if the
index files each node that has a value for it, once and under a value equal to its
own, and files nothing else. An index that mirrors a store is one of these.
-/

namespace PropertyGraph

open Std

/-- The index files exactly the nodes of the list that carry the label and have the
property, each of them once and under a value equal to its own. -/
structure PropertyIndex.FilesExactly (index : PropertyIndex) (name : IndexName)
    (nodes : List Node) : Prop where
  once : index.toList.Pairwise fun a b => a.2 ≠ b.2
  sound : ∀ key id, (key, id) ∈ index.toList → ∃ node ∈ nodes, node.id = id ∧
    node.hasLabel name.label = true ∧
      ∃ own, node.get? name.property = some own ∧ compare own key = .eq
  complete : ∀ node ∈ nodes, ∀ own, node.hasLabel name.label = true →
    node.get? name.property = some own →
      ∃ key, (key, node.id) ∈ index.toList ∧ compare own key = .eq

namespace IndexRegistry

variable {nodes : List Node} {name : IndexName} {index : PropertyIndex}

/-! ## Both sides of the check -/

theorem filed?_eq_some_iff {node : Node} {own : Value} : name.filed? node = some own ↔
    node.hasLabel name.label = true ∧ node.get? name.property = some own := by
  rw [IndexName.filed?, Option.ite_none_right_eq_some]

theorem mem_expected_iff {id : NodeId} {own : Value} :
    (id, own) ∈ expected name nodes ↔ ∃ node ∈ nodes, node.id = id ∧
      node.hasLabel name.label = true ∧ node.get? name.property = some own := by
  rw [expected, byNode, (sortBy_perm _ _).mem_iff, List.mem_filterMap]
  simp only [Option.map_eq_some_iff, filed?_eq_some_iff, Prod.mk.injEq]
  constructor
  · intro given
    rcases given with ⟨node, mem, _, ⟨carried, has⟩, rfl, rfl⟩
    exact ⟨node, mem, rfl, carried, has⟩
  · intro given
    rcases given with ⟨node, mem, rfl, carried, has⟩
    exact ⟨node, mem, own, ⟨carried, has⟩, rfl, rfl⟩

theorem mem_held_iff {id : NodeId} {key : Value} :
    (id, key) ∈ held index ↔ (key, id) ∈ index.toList := by
  rw [held, byNode, (sortBy_perm _ _).mem_iff, List.mem_map]
  constructor
  · intro given
    rcases given with ⟨⟨_, _⟩, mem, same⟩
    cases same
    exact mem
  · exact fun mem => ⟨_, mem, rfl⟩

/-- Different nodes do not compare equal by their number. -/
theorem compareOn_fst_ne {a b : NodeId × Value} (apart : a.1 ≠ b.1) :
    compareOn Prod.fst a b ≠ .eq :=
  fun same => apart (LawfulEqOrd.eq_of_compare same)

theorem expected_ascending (distinct : nodes.Pairwise fun a b => a.id ≠ b.id)
    (name : IndexName) :
    (expected name nodes).Pairwise fun a b => compareOn Prod.fst a b = .lt := by
  refine sortBy_strictly_ascending (List.pairwise_filterMap.2 ?_)
  refine distinct.imp fun apart a amem b bmem => compareOn_fst_ne ?_
  obtain ⟨_, _, rfl⟩ := Option.map_eq_some_iff.1 amem
  obtain ⟨_, _, rfl⟩ := Option.map_eq_some_iff.1 bmem
  exact apart

theorem held_ascending (once : index.toList.Pairwise fun a b => a.2 ≠ b.2) :
    (held index).Pairwise fun a b => compareOn Prod.fst a b = .lt :=
  sortBy_strictly_ascending <| List.pairwise_map.2 <|
    once.imp fun apart => compareOn_fst_ne apart

/-! ## One index -/

/-- What is expected and what is held agree: one node, and equal values. -/
def Agrees (e h : NodeId × Value) : Prop := e.1 = h.1 ∧ compare e.2 h.2 = .eq

/-- An index that files exactly what the nodes have holds, node by node, what the
check expects of it. -/
theorem forall₂_expected_held (distinct : nodes.Pairwise fun a b => a.id ≠ b.id)
    (files : index.FilesExactly name nodes) :
    List.Forall₂ Agrees (expected name nodes) (held index) := by
  refine forall₂_of_ascending (fun a b a' b' related related' => ?_)
    (expected_ascending distinct name) (held_ascending files.once) (fun e mem => ?_)
    fun h mem => ?_
  · rw [compareOn, compareOn, related.1, related'.1]
  · obtain ⟨node, mem, own, carried, has⟩ := mem_expected_iff.1 mem
    obtain ⟨key, filed, equal⟩ := files.complete node mem e.2 carried has
    exact ⟨(e.1, key), mem_held_iff.2 (own ▸ filed), rfl, equal⟩
  · obtain ⟨node, mem, own, carried, value, has, equal⟩ :=
      files.sound h.2 h.1 (mem_held_iff.1 mem)
    exact ⟨(h.1, value), mem_expected_iff.2 ⟨node, mem, own, carried, has⟩, rfl, equal⟩

/-- The nodes that are held are the nodes that are expected, and among those none
comes twice; so an entry too many for one node cannot stand in for one that another
node lacks. -/
theorem once_of_forall₂ (distinct : nodes.Pairwise fun a b => a.id ≠ b.id)
    (related : List.Forall₂ Agrees (expected name nodes) (held index)) :
    index.toList.Pairwise fun a b => a.2 ≠ b.2 := by
  have same : (expected name nodes).map Prod.fst = (held index).map Prod.fst := by
    rw [← List.forall₂_eq_eq_eq, List.forall₂_map_left_iff, List.forall₂_map_right_iff]
    exact related.imp fun _ _ agrees => agrees.1
  have ascending : ((held index).map Prod.fst).Pairwise fun a b => compare a b = .lt := by
    rw [← same]
    exact List.pairwise_map.2 (expected_ascending distinct name)
  have nodup : (index.toList.map Prod.snd).Nodup := by
    have perm := (sortBy_perm (compareOn Prod.fst)
      (index.toList.map fun posting => (posting.2, posting.1))).map Prod.fst
    rw [List.map_map] at perm
    exact perm.nodup_iff.1 (nodup_of_ascending ascending)
  exact List.pairwise_map.1 nodup

theorem filesExactly_of_forall₂ (distinct : nodes.Pairwise fun a b => a.id ≠ b.id)
    (related : List.Forall₂ Agrees (expected name nodes) (held index)) :
    index.FilesExactly name nodes where
  once := once_of_forall₂ distinct related
  sound key id mem := by
    obtain ⟨e, mem, same, equal⟩ := exists_of_forall₂ related.flip (mem_held_iff.2 mem)
    obtain ⟨node, mem, own, carried, has⟩ := mem_expected_iff.1 mem
    exact ⟨node, mem, own.trans same, carried, e.2, has, equal⟩
  complete node mem own carried has := by
    obtain ⟨⟨_, key⟩, mem, rfl, equal⟩ :=
      exists_of_forall₂ related (mem_expected_iff.2 ⟨node, mem, rfl, carried, has⟩)
    exact ⟨key, mem_held_iff.1 mem, equal⟩

/-- Entries that are as many as expected pass if each agrees with the one expected in its
place. -/
theorem verifyEntries_eq_ok_iff {expected held : List (NodeId × Value)}
    (lengths : expected.length = held.length) :
    verifyEntries name expected held = .ok () ↔ List.Forall₂ Agrees expected held := by
  induction expected generalizing held with
  | nil =>
    cases held with
    | nil => exact ⟨fun _ => .nil, fun _ => rfl⟩
    | cons h rest => cases lengths
  | cons e expected ih =>
    cases held with
    | nil => cases lengths
    | cons h held =>
      rw [verifyEntries, List.forall₂_cons]
      split
      · rename_i agrees
        rw [ih (Nat.succ.inj lengths)]
        exact ⟨fun rest => ⟨agrees, rest⟩, And.right⟩
      · rename_i differs
        constructor
        · intro accepted
          cases accepted
        · intro related
          exact (differs related.1).elim

/-- The check of one index finds nothing wrong exactly if the index files exactly
what the nodes have for it. -/
theorem verifyIndex_eq_ok_iff (distinct : nodes.Pairwise fun a b => a.id ≠ b.id) :
    verifyIndex name index nodes = .ok () ↔ index.FilesExactly name nodes := by
  rw [verifyIndex]
  split
  · rename_i lengths
    constructor
    · intro accepted
      cases accepted
    · intro files
      exact (lengths (forall₂_expected_held distinct files).length_eq).elim
  · rename_i lengths
    rw [verifyEntries_eq_ok_iff (not_not.1 lengths)]
    exact ⟨filesExactly_of_forall₂ distinct, forall₂_expected_held distinct⟩

/-! ## All indexes -/

theorem verify_eq_ok_iff {r : IndexRegistry} :
    r.verify nodes = .ok () ↔
      ∀ name index, r.get? name = some index → verifyIndex name index nodes = .ok () := by
  rw [verify, forM_eq_ok_iff]
  constructor
  · intro each name index found
    exact each (name, index) (OrderedMap.mem_entries_iff.2 found)
  · intro each e mem
    exact each e.1 e.2 (OrderedMap.get?_of_mem mem)

/-- Whatever has been done to the indexes, the check of them against nodes with
different identities finds nothing wrong exactly if each declared index files the
nodes that carry its label and have its property, each once and under a value equal
to its own, and files nothing else. -/
theorem verify_accepts_iff (distinct : nodes.Pairwise fun a b => a.id ≠ b.id)
    (r : IndexRegistry) :
    r.verify nodes = .ok () ↔
      ∀ name index, r.get? name = some index → index.FilesExactly name nodes := by
  rw [verify_eq_ok_iff]
  simp only [verifyIndex_eq_ok_iff distinct]

theorem verify_accepts_iff_after_stray_changes :
    let name : IndexName := ⟨"Person", "age"⟩
    let person := fun id age => Node.create ⟨id⟩ ["Person"] [("age", age)]
    let zero : Value := .float (.finite false 0 0)
    let minusZero : Value := .float (.finite true 0 0)
    let declared : IndexRegistry := ⟨empty.indexes.insert name .empty⟩
    let swapped := (declared.nodeCreated (person 1 (.int 2))).nodeCreated (person 2 (.int 1))
    let mixed := (declared.nodeCreated (person 1 zero)).propertyChanged (person 2 .null) "age"
      (some .null) (some minusZero)
    let nodes := [person 2 zero, person 1 minusZero]
    empty.declare name [] = .ok declared ∧ (nodes.Pairwise fun a b => a.id ≠ b.id) ∧
      swapped.verify [person 1 (.int 1), person 2 (.int 2)] =
        .error (.entry name (⟨1⟩, .int 2) (⟨1⟩, .int 1)) ∧
      (¬∀ n index, swapped.get? n = some index →
        index.FilesExactly n [person 1 (.int 1), person 2 (.int 2)]) ∧
      mixed.verify nodes = .ok () ∧
      ∀ n index, mixed.get? n = some index → index.FilesExactly n nodes := by
  refine ⟨rfl, by decide, rfl, fun files => ?_, rfl, (verify_accepts_iff (by decide) _).1 rfl⟩
  cases (verify_accepts_iff (by decide) _).2 files

/-! ## Mirrors -/

variable {node? : NodeId → Option Node}

/-- An index that mirrors a store files exactly what the nodes of the store have. -/
theorem filesExactly_of_mirrors (enumerates : Enumerates nodes node?)
    (mirrors : index.Mirrors (population node? name)) : index.FilesExactly name nodes where
  once := mirrors.distinct
  sound key id mem := by
    obtain ⟨own, has, equal⟩ := mirrors.of_mem_toList mem
    obtain ⟨node, mem, same, filed⟩ := (population_eq_some_iff enumerates).1 has
    obtain ⟨carried, has⟩ := filed?_eq_some_iff.1 filed
    exact ⟨node, mem, same, carried, own, has, equal⟩
  complete node mem own carried has := by
    obtain ⟨key, filed, equal⟩ := mirrors.exists_mem_toList
      ((population_eq_some_iff enumerates).2 ⟨node, mem, rfl, filed?_eq_some_iff.2 ⟨carried, has⟩⟩)
    exact ⟨key, filed, OrientedCmp.eq_symm equal⟩

/-- The check finds nothing wrong with a registry that mirrors the nodes. -/
theorem verify_eq_ok (enumerates : Enumerates nodes node?) {r : IndexRegistry}
    (mirrors : r.Mirrors node?) : r.verify nodes = .ok () :=
  verify_eq_ok_iff.2 fun name index declared => (verifyIndex_eq_ok_iff enumerates.distinct).2
    (filesExactly_of_mirrors enumerates (mirrors name index declared))

/-- A mirror has as many postings as there are nodes with a value for it. -/
theorem size_eq_length_filter (enumerates : Enumerates nodes node?)
    (mirrors : index.Mirrors (population node? name)) :
    index.size = (nodes.filter fun node => (name.filed? node).isSome).length := by
  have heldLength : (held index).length = index.toList.length := by
    rw [held, byNode, (sortBy_perm _ _).length_eq, List.length_map]
  have expectedLength : (expected name nodes).length =
      (nodes.filter fun node => (name.filed? node).isSome).length := by
    rw [expected, byNode, (sortBy_perm _ _).length_eq, List.length_filterMap_eq_countP,
      List.countP_eq_length_filter]
    simp only [Option.isSome_map]
  rw [mirrors.counted, ← heldLength, ← expectedLength,
    (forall₂_expected_held enumerates.distinct
      (filesExactly_of_mirrors enumerates mirrors)).length_eq]

end IndexRegistry

end PropertyGraph
