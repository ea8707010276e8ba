import PropertyGraph.Graph.Scan
import PropertyGraph.Proofs.Graph.IndexHistory
import Mathlib.Data.List.Perm.Basic

/-!
# What scans find

A scan selects the live nodes that carry its label and satisfy its predicates,
each once, whichever plan answers it. An index plan decides one predicate on the
values under which nodes are filed; that is the same as deciding it on the
values they have, since the two are equal in index order and no operator tells
equal values apart.
-/

namespace PropertyGraph

open Std

/-! ## Plans -/

theorem mem_of_leastBy? {measure : α → Nat} {as : List α} {a : α}
    (least : leastBy? measure as = some a) : a ∈ as := by
  induction as with
  | nil => cases least
  | cons b bs ih =>
    rw [leastBy?] at least
    split at least
    · cases least
      exact List.mem_cons_self
    · rename_i c found
      split at least
      · cases least
        exact List.mem_cons_self
      · cases least
        exact List.mem_cons_of_mem _ (ih found)

theorem eq_nil_of_leastBy? {measure : α → Nat} {as : List α} (least : leastBy? measure as = none) :
    as = [] := by
  cases as with
  | nil => rfl
  | cons a as =>
    rw [leastBy?] at least
    split at least
    · cases least
    · split at least <;> cases least

namespace ScanPlan

/-- The label whose nodes the plan looks for. -/
def label? : ScanPlan → Option String
  | .byIndex label _ _ => some label
  | .byLabel label _ => some label
  | .everyNode _ => none

/-- Every predicate that the plan settles, by an index or node by node. -/
def conditions : ScanPlan → List PropertyPredicate
  | .byIndex _ lookup rest => lookup :: rest
  | .byLabel _ filters => filters
  | .everyNode filters => filters

/-- Whether the index that the plan uses, if any, is declared. -/
def Executable (g : Graph) : ScanPlan → Prop
  | .byIndex label lookup _ => g.hasIndex ⟨label, lookup.key⟩ = true
  | _ => True

/-- The order in which the plan answers: for an index plan by the current values
of the indexed property and then by node, for the others by node. -/
def Precedes (g : Graph) (plan : ScanPlan) (a b : NodeId) : Prop :=
  match plan with
  | .byIndex _ lookup _ => ∃ u v, g.property? (.node a) lookup.key = some u ∧
      g.property? (.node b) lookup.key = some v ∧ (compare u v).then (compare a b) = .lt
  | _ => compare a b = .lt

end ScanPlan

namespace Graph

variable {g : Graph}

/-- What a scan is to find: a live node that carries the label, if one is asked
for, and satisfies every predicate. -/
def Selects (g : Graph) (label : Option String) (predicates : List PropertyPredicate)
    (id : NodeId) : Prop :=
  ∃ node, g.node? id = some node ∧ (∀ l, label = some l → node.hasLabel l = true) ∧
    node.satisfies predicates = true

theorem nodeSatisfies_iff {predicates : List PropertyPredicate} {id : NodeId} :
    g.nodeSatisfies predicates id = true ↔
      ∃ node, g.node? id = some node ∧ node.satisfies predicates = true := by
  rw [nodeSatisfies]
  cases g.node? id <;> simp

/-! ## Choosing a plan -/

theorem satisfies_of_perm {node : Node} {predicates predicates' : List PropertyPredicate}
    (same : predicates.Perm predicates') :
    node.satisfies predicates = node.satisfies predicates' := by
  rw [Node.satisfies, Node.satisfies, Bool.eq_iff_iff, List.all_eq_true, List.all_eq_true]
  simp only [same.mem_iff]

/-- The plan chosen for a scan looks for the nodes of its label, settles every
predicate once and uses an index only if it is declared. -/
theorem planScan_spec (g : Graph) (label : Option String) (predicates : List PropertyPredicate) :
    (g.planScan label predicates).label? = label ∧
      (g.planScan label predicates).conditions.Perm predicates ∧
      (g.planScan label predicates).Executable g := by
  unfold planScan
  cases label with
  | none => exact ⟨rfl, .refl _, trivial⟩
  | some label =>
    dsimp only
    split
    · rename_i lookup position least
      obtain ⟨mem, indexed⟩ := List.mem_filter.1 (mem_of_leastBy? least)
      have at_ : predicates[position]? = some lookup :=
        List.mem_zipIdx_iff_getElem?.1 mem
      obtain ⟨inside, rfl⟩ := List.getElem?_eq_some_iff.1 at_
      exact ⟨rfl, List.getElem_cons_eraseIdx_perm inside, (Bool.and_eq_true_iff.1 indexed).2⟩
    · exact ⟨rfl, .refl _, trivial⟩

/-! ## Running a plan -/

/-- The nodes an index lists for a lookup are those whose current value
satisfies it. -/
theorem Coherent.mem_index_scan_iff (coherent : g.Coherent) {name : IndexName}
    {index : PropertyIndex} (declared : g.indexes.get? name = some index) {op : CompareOp}
    {operand : Value} {id : NodeId} :
    id ∈ index.scan op operand ↔ ∃ node own, g.node? id = some node ∧
      node.hasLabel name.label = true ∧ node.get? name.property = some own ∧
        op.holds own operand = true := by
  have exact := coherent.holdsExactly declared
  rw [PropertyIndex.mem_scan_iff]
  constructor
  · intro listed
    rcases listed with ⟨key, mem, holds⟩
    obtain ⟨node, own, found, carried, has, equal⟩ := exact.sound key id mem
    exact ⟨node, own, found, carried, has,
      (CompareOp.holds_congr_left equal op operand).symm.trans holds⟩
  · intro carrier
    rcases carrier with ⟨node, own, found, carried, has, holds⟩
    obtain ⟨key, mem, equal⟩ := exact.complete id node own found carried has
    exact ⟨key, mem, (CompareOp.holds_congr_left equal op operand).trans holds⟩

theorem scanSource_byIndex {label : String} {lookup : PropertyPredicate}
    {rest : List PropertyPredicate} {index : PropertyIndex}
    (declared : g.indexes.get? ⟨label, lookup.key⟩ = some index) :
    g.scanSource (.byIndex label lookup rest) = index.scan lookup.op lookup.operand := by
  rw [scanSource, rangeScan, declared]

/-- A plan finds the live nodes that carry its label and satisfy its predicates. -/
theorem Coherent.mem_runScan_iff (coherent : g.Coherent) {plan : ScanPlan}
    (executable : plan.Executable g) {id : NodeId} :
    id ∈ g.runScan plan ↔ g.Selects plan.label? plan.conditions id := by
  rw [runScan, List.mem_filter, nodeSatisfies_iff]
  cases plan with
  | byIndex label lookup rest =>
    obtain ⟨index, declared⟩ := OrderedMap.contains_eq_true_iff.1 executable
    rw [scanSource_byIndex declared, coherent.mem_index_scan_iff declared]
    constructor
    · intro kept
      rcases kept with ⟨⟨node, own, found, carried, has, holds⟩, node', found', satisfies⟩
      cases found.symm.trans found'
      refine ⟨node, found, fun l same => Option.some.inj same ▸ carried, ?_⟩
      rw [ScanPlan.conditions, Node.satisfies, List.all_cons, has]
      exact Bool.and_eq_true_iff.2 ⟨holds, satisfies⟩
    · intro selected
      rcases selected with ⟨node, found, carried, satisfies⟩
      rw [ScanPlan.conditions, Node.satisfies, List.all_cons, Bool.and_eq_true] at satisfies
      obtain ⟨holds, satisfies⟩ := satisfies
      cases has : node.get? lookup.key with
      | none =>
        rw [has] at holds
        cases holds
      | some own =>
        rw [has] at holds
        exact ⟨⟨node, own, found, carried label rfl, has, holds⟩, node, found, satisfies⟩
  | byLabel label filters =>
    rw [scanSource, coherent.labelled.mem_nodesWithLabel_iff]
    constructor
    · intro kept
      rcases kept with ⟨⟨node, found, carried⟩, node', found', satisfies⟩
      cases found.symm.trans found'
      exact ⟨node, found, fun l same => Option.some.inj same ▸ carried, satisfies⟩
    · intro selected
      rcases selected with ⟨node, found, carried, satisfies⟩
      exact ⟨⟨node, found, carried label rfl⟩, node, found, satisfies⟩
  | everyNode filters =>
    rw [scanSource, nodeIdList, OrderedMap.mem_keys_iff, OrderedMap.contains_eq_true_iff]
    constructor
    · intro kept
      rcases kept with ⟨_, node, found, satisfies⟩
      exact ⟨node, found, (fun _ none => by cases none), satisfies⟩
    · intro selected
      rcases selected with ⟨node, found, _, satisfies⟩
      exact ⟨⟨node, found⟩, node, found, satisfies⟩

/-! ## Order -/

theorem Coherent.property?_of_mem_toList (coherent : g.Coherent) {name : IndexName}
    {index : PropertyIndex} (declared : g.indexes.get? name = some index) {key : Value}
    {id : NodeId} (mem : (key, id) ∈ index.toList) :
    ∃ own, g.property? (.node id) name.property = some own ∧ compare key own = .eq := by
  obtain ⟨node, own, found, _, has, equal⟩ :=
    (coherent.holdsExactly declared).sound key id mem
  refine ⟨own, ?_, equal⟩
  rw [property?, found]
  exact has

/-- An index lists its nodes by their current values and then by node. -/
theorem Coherent.index_scan_ascending (coherent : g.Coherent) {label : String}
    {lookup : PropertyPredicate} {index : PropertyIndex}
    (declared : g.indexes.get? ⟨label, lookup.key⟩ = some index)
    (rest : List PropertyPredicate) :
    (index.scan lookup.op lookup.operand).Pairwise
      (ScanPlan.Precedes g (.byIndex label lookup rest)) := by
  rw [PropertyIndex.scan_eq, List.pairwise_map]
  refine List.Pairwise.filter _ (List.Pairwise.imp_of_mem (fun {a b} amem bmem lt => ?_)
    index.postings.toList_ascending)
  obtain ⟨u, has, equal⟩ := coherent.property?_of_mem_toList declared amem
  obtain ⟨v, has', equal'⟩ := coherent.property?_of_mem_toList declared bmem
  refine ⟨u, v, has, has', ?_⟩
  rw [Postings.order_eq, TransCmp.congr_left equal, TransCmp.congr_right equal'] at lt
  exact lt

theorem Coherent.runScan_ascending (coherent : g.Coherent) {plan : ScanPlan}
    (executable : plan.Executable g) : (g.runScan plan).Pairwise (plan.Precedes g) := by
  refine List.Pairwise.filter _ ?_
  cases plan with
  | byIndex label lookup rest =>
    obtain ⟨index, declared⟩ := OrderedMap.contains_eq_true_iff.1 executable
    rw [scanSource_byIndex declared]
    exact coherent.index_scan_ascending declared rest
  | byLabel label _ => exact nodesWithLabel_ascending g label
  | everyNode _ => exact g.nodes.keys_ascending

theorem not_precedes_self (g : Graph) (plan : ScanPlan) (id : NodeId) :
    ¬plan.Precedes g id id := by
  have self : compare id id = .eq := ReflCmp.compare_self
  cases plan with
  | byIndex _ lookup _ =>
    intro precedes
    rcases precedes with ⟨u, v, has, has', lt⟩
    cases has.symm.trans has'
    have equal : compare u u = .eq := ReflCmp.compare_self
    rw [equal, self] at lt
    cases lt
  | byLabel _ _ =>
    intro lt
    cases self.symm.trans lt
  | everyNode _ =>
    intro lt
    cases self.symm.trans lt

/-- A plan finds no node twice. -/
theorem Coherent.runScan_nodup (coherent : g.Coherent) {plan : ScanPlan}
    (executable : plan.Executable g) : (g.runScan plan).Nodup := by
  refine (coherent.runScan_ascending executable).imp fun {a b} precedes same => ?_
  subst same
  exact not_precedes_self g plan a precedes

/-! ## Scans -/

theorem Coherent.mem_scan_iff (coherent : g.Coherent) {label : Option String}
    {predicates : List PropertyPredicate} {id : NodeId} :
    id ∈ g.scan label predicates ↔ g.Selects label predicates id := by
  obtain ⟨labels, conditions, executable⟩ := g.planScan_spec label predicates
  rw [scan, coherent.mem_runScan_iff executable, labels]
  simp only [Selects, satisfies_of_perm conditions]

/-- In a reachable graph a scan finds each live node that carries the label and
satisfies every predicate once and nothing else, in the order of the plan that
was chosen. A plan over a declared index finds what the plan over its label
finds that tests the lookup like the other predicates. -/
theorem scan_exact (reachable : g.Reachable) :
    (∀ label predicates,
      (g.scan label predicates).Nodup ∧
      (∀ id, id ∈ g.scan label predicates ↔ g.Selects label predicates id) ∧
      (g.scan label predicates).Pairwise ((g.planScan label predicates).Precedes g)) ∧
    (∀ label lookup rest, g.hasIndex ⟨label, lookup.key⟩ = true →
      (g.runScan (.byIndex label lookup rest)).Nodup ∧
      (∀ id, id ∈ g.runScan (.byIndex label lookup rest) ↔
        id ∈ g.runScan (.byLabel label (lookup :: rest))) ∧
      (g.runScan (.byIndex label lookup rest)).Pairwise
        (ScanPlan.Precedes g (.byIndex label lookup rest))) := by
  have coherent := reachable.coherent
  constructor
  · intro label predicates
    have executable := (g.planScan_spec label predicates).2.2
    exact ⟨coherent.runScan_nodup executable, fun id => coherent.mem_scan_iff,
      coherent.runScan_ascending executable⟩
  · intro label lookup rest declared
    have executable : (ScanPlan.byIndex label lookup rest).Executable g := declared
    have plain : (ScanPlan.byLabel label (lookup :: rest)).Executable g := trivial
    refine ⟨coherent.runScan_nodup executable, fun id => ?_,
      coherent.runScan_ascending executable⟩
    rw [coherent.mem_runScan_iff executable, coherent.mem_runScan_iff plain]
    rfl

theorem scan_exact_on_ages :
    let g := (Graph.empty .standard).afterAll
      [.createNode ["Person"] [("age", .int 30)], .createNode ["Person"] [("age", .int 20)],
        .createIndex ⟨"Person", "age"⟩, .createNode ["Person"] [("age", .int 7)]]
    let adults : List PropertyPredicate := [⟨"age", .ge, .int 18⟩]
    g.Reachable ∧ (g.planScan (some "Person") adults).usesIndex = true ∧
      g.scan (some "Person") adults = [⟨2⟩, ⟨1⟩] ∧
      (∀ id, id ∈ g.scan (some "Person") adults ↔ g.Selects (some "Person") adults id) ∧
      ∀ id, id ∈ g.runScan (.byIndex "Person" ⟨"age", .ge, .int 18⟩ []) ↔
        id ∈ g.runScan (.byLabel "Person" adults) := by
  intro g adults
  have reachable : g.Reachable := (Reachable.empty .standard).afterAll _
  have exactly := scan_exact reachable
  exact ⟨reachable, by decide, by decide, (exactly.1 (some "Person") adults).2.1,
    (exactly.2 "Person" ⟨"age", .ge, .int 18⟩ [] (by decide)).2.1⟩

end Graph

end PropertyGraph
