import PropertyGraph.Index.Registry
import PropertyGraph.Proofs.Entity.Node
import PropertyGraph.Proofs.Index.PropertyIndex

/-!
# Indexes that mirror the nodes

An index mirrors a population, given by the value that each node has for the
index, if it files every node of the population under that value and nothing
else. Filing a node anew after its value has changed keeps the mirror, and every
hook of the registry does just that to every index. An index that mirrors its
nodes passes the check against them, and any two that mirror the same nodes
list the same postings.
-/

namespace PropertyGraph

open Std

/-! ## Mirrors -/

/-- The index files each node under a value equal to the one that the node has
for it, files nothing else and counts what it files. -/
structure PropertyIndex.Mirrors (index : PropertyIndex) (has : NodeId → Option Value) :
    Prop where
  holds_iff : ∀ value id,
    index.postings.holds value id = true ↔ ∃ own, has id = some own ∧ compare own value = .eq
  counted : index.Counted

namespace IndexRegistry

/-- Striking a node from under the value it has leaves what is held for others. -/
theorem holds_strike {index : PropertyIndex} {has : NodeId → Option Value}
    (mirrors : index.Mirrors has) (id : NodeId) {q : Value} {n : NodeId} :
    (index.strike id (has id)).postings.holds q n = true ↔
      n ≠ id ∧ index.postings.holds q n = true := by
  have own := mirrors.holds_iff q id
  cases before : has id with
  | none =>
    refine ⟨fun held => ⟨fun same => ?_, held⟩, fun held => held.2⟩
    subst same
    obtain ⟨_, absent, _⟩ := own.1 held
    rw [before] at absent
    cases absent
  | some value =>
    rw [PropertyIndex.strike, PropertyIndex.holds_remove]
    refine ⟨fun ⟨held, other⟩ => ⟨fun same => ?_, held⟩,
      fun ⟨other, held⟩ => ⟨held, fun same => other same.2⟩⟩
    subst same
    obtain ⟨own, has, equal⟩ := own.1 held
    rw [before] at has
    cases has
    exact other ⟨equal, rfl⟩

/-- Filing a node anew replaces what the index held for it. -/
theorem holds_refile {index : PropertyIndex} {has : NodeId → Option Value}
    (mirrors : index.Mirrors has) {id : NodeId} {new : Option Value}
    (stored : ∀ value, new = some value → value.isNull = false) {q : Value} {n : NodeId} :
    (refile index id (has id) new).postings.holds q n = true ↔
      (n = id ∧ ∃ own, new = some own ∧ compare own q = .eq) ∨
        (n ≠ id ∧ index.postings.holds q n = true) := by
  have rest := holds_strike mirrors id (q := q) (n := n)
  unfold refile
  cases new with
  | none =>
    rw [PropertyIndex.file, rest]
    simp
  | some value =>
    rw [PropertyIndex.file, PropertyIndex.holds_insert (stored value rfl), rest]
    simp [and_comm]

theorem counted_refile {index : PropertyIndex} (counted : index.Counted) (id : NodeId)
    (old new : Option Value) : (refile index id old new).Counted := by
  cases old <;> cases new
  · exact counted
  · exact counted.insert _ id
  · exact counted.remove _ id
  · exact (counted.remove _ id).insert _ id

/-- After the value of one node has changed, filing that node anew restores the
mirror. -/
theorem mirrors_refile {index : PropertyIndex} {has has' : NodeId → Option Value}
    (mirrors : index.Mirrors has) (id : NodeId) (elsewhere : ∀ n, n ≠ id → has' n = has n)
    (stored : ∀ value, has' id = some value → value.isNull = false) :
    (refile index id (has id) (has' id)).Mirrors has' where
  holds_iff q n := by
    rw [holds_refile mirrors stored]
    by_cases same : n = id
    · subst same
      simp
    · rw [elsewhere n same, ← mirrors.holds_iff q n]
      simp [same]
  counted := counted_refile mirrors.counted id _ _

theorem mirrors_congr {index : PropertyIndex} {has has' : NodeId → Option Value}
    (mirrors : index.Mirrors has) (same : ∀ id, has' id = has id) : index.Mirrors has' where
  holds_iff q n := by
    rw [same n]
    exact mirrors.holds_iff q n
  counted := mirrors.counted

/-- What each node of a store has for an index. -/
def population (node? : NodeId → Option Node) (name : IndexName) (id : NodeId) : Option Value :=
  (node? id).bind name.filed?

/-- Every declared index mirrors the nodes of a store. -/
def Mirrors (r : IndexRegistry) (node? : NodeId → Option Node) : Prop :=
  ∀ name index, r.get? name = some index → index.Mirrors (population node? name)

/-- How a registry may follow the change of one node: each index either files
the node anew or is left alone, the latter only where the node has for it what
it had before. -/
def Follows (id : NodeId) (node? node?' : NodeId → Option Node) (r r' : IndexRegistry) : Prop :=
  ∀ name, ∃ follow : PropertyIndex → PropertyIndex,
    r'.get? name = (r.get? name).map follow ∧ ∀ index,
      follow index =
          refile index id (population node? name id) (population node?' name id) ∨
        (follow index = index ∧ population node?' name id = population node? name id)

/-- A registry that follows a change of a node keeps mirroring the store. -/
theorem Mirrors.follow {r r' : IndexRegistry} {node? node?' : NodeId → Option Node} {id : NodeId}
    (mirrors : r.Mirrors node?) (follows : Follows id node? node?' r r')
    (elsewhere : ∀ n, n ≠ id → node?' n = node? n)
    (proper : ∀ node, node?' id = some node → node.Proper id) : r'.Mirrors node?' := by
  intro name index' found
  obtain ⟨follow, effect, cases⟩ := follows name
  rw [effect] at found
  obtain ⟨index, before, rfl⟩ := Option.map_eq_some_iff.1 found
  have others : ∀ n, n ≠ id → population node?' name n = population node? name n := by
    intro n other
    rw [population, population, elsewhere n other]
  rcases cases index with filed | ⟨kept, unchanged⟩
  · rw [filed]
    refine mirrors_refile (mirrors name index before) id others fun value has => ?_
    obtain ⟨node, stored, filedAs⟩ := Option.bind_eq_some_iff.1 has
    rw [IndexName.filed?] at filedAs
    split at filedAs
    · exact (proper node stored).noNull name.property value filedAs
    · cases filedAs
  · rw [kept]
    refine mirrors_congr (mirrors name index before) fun n => ?_
    by_cases same : n = id
    · rw [same, unchanged]
    · exact others n same

/-! ## The hooks -/

theorem get?_fileUnder (r : IndexRegistry) (label : String) (node : Node)
    (change : PropertyIndex → NodeId → Option Value → PropertyIndex) (name : IndexName) :
    (r.fileUnder label node change).get? name = (r.get? name).map fun index =>
      if name.label = label then change index node.id (node.get? name.property) else index :=
  OrderedMap.get?_mapValues r.indexes _ name

/-- A step taken for each label in turn, that changes the indexes of that label
only, changes the indexes of all the labels once. -/
theorem get?_foldl {labels : List String} (nodup : labels.Nodup)
    {step : IndexRegistry → String → IndexRegistry} {name : IndexName}
    {change : PropertyIndex → PropertyIndex}
    (hit : ∀ r label, (step r label).get? name =
      (r.get? name).map fun index => if name.label = label then change index else index)
    (r : IndexRegistry) :
    (labels.foldl step r).get? name =
      (r.get? name).map fun index => if name.label ∈ labels then change index else index := by
  induction labels generalizing r with
  | nil => simp
  | cons label rest ih =>
    obtain ⟨absent, nodup⟩ := List.nodup_cons.1 nodup
    rw [List.foldl_cons, ih nodup, hit, Option.map_map]
    congr 1
    funext index
    by_cases same : name.label = label
    · have notLater : name.label ∉ rest := same ▸ absent
      simp [same, same ▸ notLater]
    · simp [same]

theorem get?_nodeCreated {node : Node} (nodup : node.labels.Nodup) (r : IndexRegistry)
    (name : IndexName) :
    (r.nodeCreated node).get? name =
      (r.get? name).map fun index => refile index node.id none (name.filed? node) := by
  refine (get?_foldl nodup (fun r label => get?_fileUnder r label node .file name) r).trans ?_
  congr 1
  funext index
  rw [IndexName.filed?]
  by_cases carried : name.label ∈ node.labels
  · rw [if_pos carried, if_pos (Node.hasLabel_iff.2 carried)]
    rfl
  · rw [if_neg carried, if_neg fun held => carried (Node.hasLabel_iff.1 held)]
    rfl

theorem get?_nodeDeleted {node : Node} (nodup : node.labels.Nodup) (r : IndexRegistry)
    (name : IndexName) :
    (r.nodeDeleted node).get? name =
      (r.get? name).map fun index => refile index node.id (name.filed? node) none := by
  refine (get?_foldl nodup (fun r label => get?_fileUnder r label node .strike name) r).trans ?_
  congr 1
  funext index
  rw [IndexName.filed?]
  by_cases carried : name.label ∈ node.labels
  · rw [if_pos carried, if_pos (Node.hasLabel_iff.2 carried)]
    rfl
  · rw [if_neg carried, if_neg fun held => carried (Node.hasLabel_iff.1 held)]
    rfl

/-- Deleting a node leaves the same indexes declared. -/
theorem names_nodeDeleted (r : IndexRegistry) (node : Node) :
    (r.nodeDeleted node).names = r.names := by
  unfold nodeDeleted
  induction node.labels generalizing r with
  | nil => rfl
  | cons label rest ih => exact (ih _).trans (OrderedMap.keys_mapValues _ _)

/-- A changed property concerns the indexes of that property that are for labels of the
node, each of them once. -/
theorem get?_propertyChanged {node : Node} (nodup : node.labels.Nodup) (r : IndexRegistry)
    (key : String) (old new : Option Value) (name : IndexName) :
    (r.propertyChanged node key old new).get? name = (r.get? name).map fun index =>
      if name.label ∈ node.labels then
        if name.property = key then refile index node.id old new else index
      else index := by
  refine get?_foldl nodup (fun r label => ?_) r
  rw [get?, OrderedMap.get?_modify]
  by_cases same : name = ⟨label, key⟩
  · subst same
    rw [if_pos ReflCmp.compare_self]
    simp [get?]
  · rw [if_neg fun equal => same (LawfulEqOrd.eq_of_compare equal).symm]
    have apart : ∀ index, (if name.label = label then
        if name.property = key then refile index node.id old new else index
      else index) = index := by
      intro index
      by_cases labels : name.label = label
      · rw [if_pos labels, if_neg]
        intro same
        subst same
        exact same (by rw [← labels])
      · rw [if_neg labels]
    simp [get?, apart]

end IndexRegistry

end PropertyGraph
