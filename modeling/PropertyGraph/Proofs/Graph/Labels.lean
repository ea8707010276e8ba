import PropertyGraph.Proofs.Graph.Storage
import PropertyGraph.Proofs.Index.Postings

/-!
# Nodes by label

The label index posts a node under a label exactly if the node is live and
carries the label. Every write keeps that, since it touches the postings of one
node only and leaves those of the node in step with its labels.
-/

namespace PropertyGraph

open Std

/-! ## Posting under several labels -/

theorem holds_foldl_post {id n : NodeId} {q : String} {labels : List String}
    (index : Postings String NodeId) :
    (labels.foldl (fun index label => index.post label id) index).holds q n = true ↔
      (n = id ∧ q ∈ labels) ∨ index.holds q n = true := by
  induction labels generalizing index with
  | nil => simp
  | cons label rest ih =>
    rw [List.foldl_cons, ih, Postings.holds_post_iff, List.mem_cons, Std.compare_eq_iff_eq,
      eq_comm (a := q)]
    grind

theorem holds_foldl_withdraw {id n : NodeId} {q : String} {labels : List String}
    (index : Postings String NodeId) :
    (labels.foldl (fun index label => index.withdraw label id) index).holds q n = true ↔
      index.holds q n = true ∧ ¬(n = id ∧ q ∈ labels) := by
  induction labels generalizing index with
  | nil => simp
  | cons label rest ih =>
    rw [List.foldl_cons, ih, Postings.holds_withdraw_iff, List.mem_cons, Std.compare_eq_iff_eq,
      eq_comm (a := q)]
    grind

namespace Graph

variable {g g' : Graph}

/-! ## The label index -/

/-- A node is posted under a label exactly if it is live and carries the label. -/
def Labelled (g : Graph) : Prop :=
  ∀ label id, g.labelIndex.holds label id = true ↔
    ∃ node, g.node? id = some node ∧ node.hasLabel label = true

theorem Labelled.empty (config : GraphConfig) : (Graph.empty config).Labelled := by
  intro label id
  constructor
  · intro held
    cases held
  · intro given
    rcases given with ⟨_, found, _⟩
    cases found

/-- A write to one node keeps the label index right if it leaves the postings of
the others alone and posts the node under the labels it has afterwards. -/
theorem Labelled.rewrite (labelled : g.Labelled) (id : NodeId)
    (elsewhere : ∀ n, n ≠ id → g'.node? n = g.node? n)
    (others : ∀ label n, n ≠ id →
      (g'.labelIndex.holds label n = true ↔ g.labelIndex.holds label n = true))
    (own : ∀ label, g'.labelIndex.holds label id = true ↔
      ∃ node, g'.node? id = some node ∧ node.hasLabel label = true) : g'.Labelled := by
  intro label n
  by_cases same : n = id
  · subst same
    exact own label
  · rw [others label n same, elsewhere n same]
    exact labelled label n

/-- A new node is posted under its labels and under no others. -/
theorem Labelled.createNode (labelled : g.Labelled) (stored : g.Stored) (labels : List String)
    (properties : List (String × Value)) : (g.createNode labels properties).2.Labelled := by
  refine labelled.rewrite g.takeNodeId.1
    (fun n other => OrderedMap.get?_insert_of_ne _ _ other) (fun label n other => ?_)
    fun label => ?_
  · refine (holds_foldl_post g.labelIndex).trans ⟨?_, .inr⟩
    intro either
    rcases either with ⟨same, _⟩ | held
    · exact (other same).elim
    · exact held
  · have absent : g.labelIndex.holds label g.takeNodeId.1 ≠ true := fun held => by
      obtain ⟨_, found, _⟩ := (labelled label _).1 held
      rw [stored.takeNodeId_free] at found
      cases found
    refine (holds_foldl_post g.labelIndex).trans ⟨?_, ?_⟩
    · intro either
      rcases either with ⟨_, carried⟩ | held
      · exact ⟨_, OrderedMap.get?_insert_self _ _ _, Node.hasLabel_iff.2 carried⟩
      · exact (absent held).elim
    · intro given
      rcases given with ⟨node, found, carried⟩
      cases (OrderedMap.get?_insert_self _ _ _).symm.trans found
      exact .inl ⟨rfl, Node.hasLabel_iff.1 carried⟩

theorem Labelled.storeLabel (labelled : g.Labelled) {id : NodeId} {node node' : Node}
    {label : String} (found : g.node? id = some node) (attached : node.attach? label = some node') :
    (g.storeLabel id node' label).Labelled := by
  obtain ⟨_, rfl⟩ := Node.attach?_eq_some_iff.1 attached
  refine labelled.rewrite id (fun n other => OrderedMap.get?_insert_of_ne _ _ other)
    (fun q n other => ?_) fun q => ?_
  · refine Postings.holds_post_iff.trans ⟨?_, .inr⟩
    intro either
    rcases either with ⟨_, same⟩ | held
    · exact (other same).elim
    · exact held
  · have before := labelled q id
    rw [found] at before
    rw [show (g.storeLabel id _ label).node? id = _ from OrderedMap.get?_insert_self _ _ _]
    refine Postings.holds_post_iff.trans ?_
    rw [before]
    simp only [Option.some.injEq, exists_eq_left', Node.hasLabel_iff, List.mem_append,
      List.mem_singleton, Std.compare_eq_iff_eq, and_true, eq_comm (a := q), or_comm]

theorem Labelled.strikeLabel (labelled : g.Labelled) {id : NodeId} {node node' : Node}
    {label : String} (found : g.node? id = some node) (detached : node.detach? label = some node') :
    (g.strikeLabel id node' label).Labelled := by
  obtain ⟨_, rfl⟩ := Node.detach?_eq_some_iff.1 detached
  refine labelled.rewrite id (fun n other => OrderedMap.get?_insert_of_ne _ _ other)
    (fun q n other => ?_) fun q => ?_
  · exact Postings.holds_withdraw_iff.trans ⟨fun held => held.1, fun held =>
      ⟨held, fun same => other same.2⟩⟩
  · have before := labelled q id
    rw [found] at before
    rw [show (g.strikeLabel id _ label).node? id = _ from OrderedMap.get?_insert_self _ _ _]
    refine Postings.holds_withdraw_iff.trans ?_
    rw [before]
    simp only [Option.some.injEq, exists_eq_left', Node.hasLabel_iff, List.mem_filter, bne_iff_ne,
      ne_eq, Std.compare_eq_iff_eq, and_true, eq_comm (a := q)]

theorem Labelled.storeProperty (labelled : g.Labelled) {id : NodeId} {node : Node} (key : String)
    (value : Value) (found : g.node? id = some node) :
    (g.storeProperty id (node.write key value) key (node.get? key)).Labelled := by
  refine labelled.rewrite id (fun n other => OrderedMap.get?_insert_of_ne _ _ other)
    (fun q n other => .rfl) fun q => (labelled q id).trans ?_
  rw [found, show (g.storeProperty id _ key _).node? id = _ from OrderedMap.get?_insert_self _ _ _]
  simp [Node.hasLabel, Node.write]

theorem Labelled.strikeNode (labelled : g.Labelled) {id : NodeId} {node : Node}
    (found : g.node? id = some node) : (g.strikeNode id node).Labelled := by
  refine labelled.rewrite id (fun n other => OrderedMap.get?_erase_of_ne _ other)
    (fun q n other => ?_) fun q => ?_
  · exact (holds_foldl_withdraw g.labelIndex).trans ⟨fun held => held.1, fun held =>
      ⟨held, fun same => other same.1⟩⟩
  · rw [show (g.strikeNode id node).node? id = _ from OrderedMap.get?_erase_self _ _]
    refine (holds_foldl_withdraw g.labelIndex).trans ⟨?_, ?_⟩
    · intro staying
      rcases staying with ⟨held, left⟩
      obtain ⟨own, stored, carried⟩ := (labelled q id).1 held
      cases found.symm.trans stored
      exact (left ⟨rfl, Node.hasLabel_iff.1 carried⟩).elim
    · intro given
      rcases given with ⟨_, none, _⟩
      cases none

theorem Labelled.write (labelled : g.Labelled) (stored : g.Stored) (step : Write g g') :
    g'.Labelled := by
  cases step with
  | createNode labels properties => exact labelled.createNode stored labels properties
  | storeLabel found attached => exact labelled.storeLabel found attached
  | strikeLabel found detached => exact labelled.strikeLabel found detached
  | storeProperty key value found => exact labelled.storeProperty key value found
  | strikeNode found => exact labelled.strikeNode found
  | writeRelationship _ _ _ => exact labelled
  | storeRelationship _ _ _ _ => exact labelled
  | strikeRelationship _ => exact labelled
  | declareIndex _ => exact labelled
  | dropIndex _ => exact labelled

/-! ## Nodes of a label -/

theorem Labelled.mem_nodesWithLabel_iff (labelled : g.Labelled) {label : String} {id : NodeId} :
    id ∈ g.nodesWithLabel label ↔ ∃ node, g.node? id = some node ∧ node.hasLabel label = true :=
  Postings.mem_members_iff.trans (labelled label id)

theorem nodesWithLabel_ascending (g : Graph) (label : String) :
    (g.nodesWithLabel label).Pairwise fun a b => compare a b = .lt :=
  Postings.members_ascending _ _

end Graph

end PropertyGraph
