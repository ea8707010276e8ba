import PropertyGraph.Proofs.Index.Registry

/-!
# What a mirror lists

Read as a list, an index that mirrors its nodes has one posting for each node
that has a value for it. So a fresh index filled from the nodes mirrors them, and
any two mirrors of the same nodes list the same postings up to equal values.
-/

namespace PropertyGraph

open Std

/-! ## Postings of a mirror -/

namespace PropertyIndex

variable {index : PropertyIndex} {has : NodeId → Option Value}

theorem Mirrors.of_mem_toList (mirrors : index.Mirrors has) {key : Value} {id : NodeId}
    (mem : (key, id) ∈ index.toList) : ∃ own, has id = some own ∧ compare own key = .eq :=
  (mirrors.holds_iff key id).1 (Postings.holds_of_mem_toList mem)

theorem Mirrors.exists_mem_toList (mirrors : index.Mirrors has) {own : Value} {id : NodeId}
    (filed : has id = some own) : ∃ key, (key, id) ∈ index.toList ∧ compare key own = .eq :=
  Postings.exists_mem_toList ((mirrors.holds_iff own id).2 ⟨own, filed, ReflCmp.compare_self⟩)

/-- No node is posted twice: both postings would have the node's own value. -/
theorem Mirrors.distinct (mirrors : index.Mirrors has) :
    index.toList.Pairwise fun a b => a.2 ≠ b.2 := by
  refine List.Pairwise.imp_of_mem (fun {a b} amem bmem lt same => ?_)
    index.postings.toList_ascending
  obtain ⟨own, filed, left⟩ := mirrors.of_mem_toList amem
  obtain ⟨own', filed', right⟩ := mirrors.of_mem_toList bmem
  rw [same, filed'] at filed
  cases filed
  have keys : compare a.1 b.1 = .eq := TransCmp.eq_trans (OrientedCmp.eq_symm left) right
  have ids : compare a.2 b.2 = .eq := same ▸ ReflCmp.compare_self
  rw [Postings.order_eq, keys, ids] at lt
  cases lt

/-- Striking a node from under its value takes its posting out of a mirror and leaves
the others. -/
theorem Mirrors.toList_strike (mirrors : index.Mirrors has) (id : NodeId) :
    (index.strike id (has id)).toList = index.toList.filter fun e => e.2 != id := by
  cases filed : has id with
  | none =>
    refine (List.filter_eq_self.2 fun e mem => bne_iff_ne.2 fun same => ?_).symm
    obtain ⟨own, filed', _⟩ := mirrors.of_mem_toList mem
    rw [same, filed] at filed'
    cases filed'
  | some value =>
    refine (Postings.toList_withdraw index.postings value id).trans
      (List.filter_congr fun e mem => ?_)
    by_cases same : e.2 = id
    · obtain ⟨own, filed', equal⟩ := mirrors.of_mem_toList mem
      rw [same, filed] at filed'
      cases filed'
      simp [same, equal]
    · have apart : compare id e.2 ≠ .eq := fun equal => same (LawfulEqOrd.eq_of_compare equal).symm
      rw [beq_eq_false_iff_ne.2 apart, Bool.and_false, bne_iff_ne.2 same]
      rfl

/-- Two mirrors of one population list the same postings, up to equal values. -/
theorem Mirrors.agree {other : PropertyIndex} (mirrors : index.Mirrors has)
    (mirrors' : other.Mirrors has) :
    List.Forall₂ (fun a b => compare a.1 b.1 = .eq ∧ a.2 = b.2) index.toList other.toList := by
  have answered : ∀ {i j : PropertyIndex}, i.Mirrors has → j.Mirrors has →
      ∀ a ∈ i.toList, ∃ b ∈ j.toList, compare a.1 b.1 = .eq ∧ a.2 = b.2 := by
    intro i j left right a mem
    obtain ⟨own, filed, equal⟩ := left.of_mem_toList mem
    obtain ⟨key, mem', equal'⟩ := right.exists_mem_toList filed
    exact ⟨(key, a.2), mem', OrientedCmp.eq_symm (TransCmp.eq_trans equal' equal), rfl⟩
  refine forall₂_of_ascending (fun a b a' b' related related' => ?_)
    index.postings.toList_ascending
    other.postings.toList_ascending (answered mirrors mirrors') fun b mem => ?_
  · rw [Postings.order_eq, Postings.order_eq, related.2, related'.2,
      TransCmp.congr_left related.1, TransCmp.congr_right related'.1]
  · obtain ⟨a, mem', equal, same⟩ := answered mirrors' mirrors b mem
    exact ⟨a, mem', OrientedCmp.eq_symm equal, same.symm⟩

end PropertyIndex

/-! ## Lists of nodes -/

/-- A list of nodes names every node of a store once. -/
structure Enumerates (nodes : List Node) (node? : NodeId → Option Node) : Prop where
  mem_iff : ∀ node, node ∈ nodes ↔ node? node.id = some node
  proper : ∀ id node, node? id = some node → node.Proper id
  distinct : nodes.Pairwise fun a b => a.id ≠ b.id

namespace IndexRegistry

variable {nodes : List Node} {node? : NodeId → Option Node}

theorem population_eq_some_iff (enumerates : Enumerates nodes node?) {name : IndexName}
    {id : NodeId} {value : Value} :
    population node? name id = some value ↔
      ∃ node ∈ nodes, node.id = id ∧ name.filed? node = some value := by
  rw [population, Option.bind_eq_some_iff]
  constructor
  · intro given
    rcases given with ⟨node, stored, filed⟩
    have own := (enumerates.proper id node stored).own
    exact ⟨node, (enumerates.mem_iff node).2 (own ▸ stored), own, filed⟩
  · intro given
    rcases given with ⟨node, mem, rfl, filed⟩
    exact ⟨node, (enumerates.mem_iff node).1 mem, filed⟩

theorem filed?_noNull {name : IndexName} {node : Node} {value : Value}
    (noNull : Properties.NoNull node.properties) (filed : name.filed? node = some value) :
    value.isNull = false := by
  rw [IndexName.filed?] at filed
  split at filed
  · exact noNull name.property value filed
  · cases filed

/-! ## Filling -/

theorem holds_foldl_file {name : IndexName} {q : Value} {n : NodeId}
    (noNull : ∀ node ∈ nodes, Properties.NoNull node.properties) (index : PropertyIndex) :
    (nodes.foldl (fun index node => index.file node.id (name.filed? node)) index).postings.holds
        q n = true ↔
      index.postings.holds q n = true ∨
        ∃ node ∈ nodes, node.id = n ∧ ∃ own, name.filed? node = some own ∧ compare own q = .eq := by
  induction nodes generalizing index with
  | nil => simp
  | cons node rest ih =>
    rw [List.foldl_cons, ih fun other mem => noNull other (List.mem_cons_of_mem _ mem)]
    cases filed : name.filed? node with
    | none => simp [PropertyIndex.file, filed]
    | some value =>
      have stored := filed?_noNull (noNull node List.mem_cons_self) filed
      rw [PropertyIndex.file, PropertyIndex.holds_insert stored]
      simp only [List.mem_cons, exists_eq_or_imp, filed, Option.some.injEq, exists_eq_left']
      rw [or_comm (b := index.postings.holds q n = true), or_assoc, eq_comm (a := n),
        and_comm (a := node.id = n)]

theorem counted_foldl_file (name : IndexName) (nodes : List Node) {index : PropertyIndex}
    (counted : index.Counted) :
    (nodes.foldl (fun index node => index.file node.id (name.filed? node)) index).Counted := by
  induction nodes generalizing index with
  | nil => exact counted
  | cons node rest ih =>
    rw [List.foldl_cons]
    refine ih ?_
    cases name.filed? node with
    | none => exact counted
    | some value => exact counted.insert value node.id

/-- An index filled from the nodes mirrors them. -/
theorem mirrors_filled (enumerates : Enumerates nodes node?) (name : IndexName) :
    (filled name nodes).Mirrors (population node? name) where
  holds_iff q n := by
    have noNull : ∀ node ∈ nodes, Properties.NoNull node.properties := fun node mem =>
      (enumerates.proper node.id node ((enumerates.mem_iff node).1 mem)).noNull
    rw [filled, holds_foldl_file noNull]
    simp only [PropertyIndex.holds_empty, Bool.false_eq_true, false_or,
      population_eq_some_iff enumerates]
    constructor
    · intro given
      rcases given with ⟨node, mem, same, own, filed, equal⟩
      exact ⟨own, ⟨node, mem, same, filed⟩, equal⟩
    · intro given
      rcases given with ⟨own, ⟨node, mem, same, filed⟩, equal⟩
      exact ⟨node, mem, same, own, filed, equal⟩
  counted := counted_foldl_file name nodes .empty

end IndexRegistry

end PropertyGraph
