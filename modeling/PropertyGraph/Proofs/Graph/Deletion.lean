import PropertyGraph.Proofs.Graph.Edges

/-!
# Deleting

Deleting a relationship takes one relationship away and deleting a node takes the
node away after all relationships that it stands at an end of. These are found in
the adjacency, so in a graph whose adjacency agrees with its relationships they
are live and listed once, and the deletion of a live node cannot fail halfway.
-/

namespace PropertyGraph

open Std

namespace Graph

variable {g g' : Graph}

/-! ## Deleting relationships -/

theorem relationshipCount_strikeRelationship {id : RelId} {rel : Relationship}
    (stored : g.relationship? id = some rel) :
    (g.strikeRelationship id rel).relationshipCount + 1 = g.relationshipCount :=
  OrderedMap.size_erase_of_get? stored

theorem deleteRelationship_eq_ok {id : RelId} {rel : Relationship}
    (stored : g.relationship? id = some rel) :
    deleteRelationship id g = (.ok (), g.strikeRelationship id rel) := by
  rw [deleteRelationship, stored]

theorem deleteRelationship_eq_error {id : RelId} (dead : g.relationship? id = none) :
    deleteRelationship id g = (.error (.relationshipNotFound id), g) := by
  rw [deleteRelationship, dead]

theorem relationship?_strikeRelationship (id : RelId) (rel : Relationship) (n : RelId) :
    (g.strikeRelationship id rel).relationship? n =
      if n = id then none else g.relationship? n := by
  split
  · rename_i same
    subst same
    exact OrderedMap.get?_erase_self g.relationships n
  · rename_i other
    exact OrderedMap.get?_erase_of_ne g.relationships other

/-- What it means that these relationships were taken away and nothing else. -/
structure Detaches (rels : List RelId) (g g' : Graph) : Prop where
  config : g'.config = g.config
  nodes : g'.nodes = g.nodes
  catalog : g'.catalog = g.catalog
  indexes : g'.indexes = g.indexes
  relationships : ∀ n, g'.relationship? n = if n ∈ rels then none else g.relationship? n
  count : g'.relationshipCount + rels.length = g.relationshipCount

theorem Detaches.nil (g : Graph) : Detaches [] g g where
  config := rfl
  nodes := rfl
  catalog := rfl
  indexes := rfl
  relationships _ := (if_neg List.not_mem_nil).symm
  count := rfl

/-- First one relationship and then others. -/
theorem Detaches.cons {id : RelId} {rel : Relationship} {rest : List RelId}
    (stored : g.relationship? id = some rel)
    (detaches : Detaches rest (g.strikeRelationship id rel) g') :
    Detaches (id :: rest) g g' where
  config := detaches.config
  nodes := detaches.nodes
  catalog := detaches.catalog
  indexes := detaches.indexes
  relationships n := by
    rw [detaches.relationships, relationship?_strikeRelationship]
    by_cases same : n = id <;> simp [same]
  count := by
    have struck := relationshipCount_strikeRelationship stored
    have counted := detaches.count
    rw [List.length_cons]
    omega

/-- Live relationships, each listed once, are deleted one after the other. -/
theorem forM_deleteRelationship {rels : List RelId} (nodup : rels.Nodup)
    (live : ∀ id ∈ rels, ∃ rel, g.relationship? id = some rel) :
    ∃ g', (rels.forM deleteRelationship : Action Unit) g = (.ok (), g') ∧
      Detaches rels g g' := by
  induction rels generalizing g with
  | nil => exact ⟨g, rfl, .nil g⟩
  | cons id rest ih =>
    rw [List.nodup_cons] at nodup
    rw [List.forall_mem_cons] at live
    obtain ⟨rel, stored⟩ := live.1
    have later : ∀ other ∈ rest, ∃ rel', (g.strikeRelationship id rel).relationship? other =
        some rel' := by
      intro other mem
      have apart : other ≠ id := fun same => nodup.1 (same ▸ mem)
      rw [relationship?_strikeRelationship, if_neg apart]
      exact live.2 other mem
    obtain ⟨g', ran, detaches⟩ := ih nodup.2 later
    exact ⟨g', (RefusableAction.bind_of_ok (deleteRelationship_eq_ok stored)).trans ran,
      detaches.cons stored⟩

/-! ## Deleting nodes -/

theorem nodeCount_strikeNode {id : NodeId} {node : Node} (stored : g.node? id = some node) :
    (g.strikeNode id node).nodeCount + 1 = g.nodeCount :=
  OrderedMap.size_erase_of_get? stored

theorem node?_strikeNode (id : NodeId) (node : Node) (n : NodeId) :
    (g.strikeNode id node).node? n = if n = id then none else g.node? n := by
  split
  · rename_i same
    subst same
    exact OrderedMap.get?_erase_self g.nodes n
  · rename_i other
    exact OrderedMap.get?_erase_of_ne g.nodes other

/-- What it means that a live node was taken away after these relationships. -/
structure Deletes (id : NodeId) (rels : List RelId) (g g' : Graph) : Prop where
  config : g'.config = g.config
  nodes : ∀ n, g'.node? n = if n = id then none else g.node? n
  relationships : ∀ n, g'.relationship? n = if n ∈ rels then none else g.relationship? n
  catalog : g'.catalog = g.catalog
  indexes : ∀ node, g.node? id = some node → g'.indexes = g.indexes.nodeDeleted node
  nodeCount : g'.nodeCount + 1 = g.nodeCount
  relationshipCount : g'.relationshipCount + rels.length = g.relationshipCount

/-- Striking the node after its relationships were detached. -/
theorem Detaches.strikeNode {id : NodeId} {node : Node} {rels : List RelId}
    (detaches : Detaches rels g g') (stored : g.node? id = some node) :
    Deletes id rels g (g'.strikeNode id node) where
  config := detaches.config
  nodes n := by
    rw [node?_strikeNode, node?, node?, detaches.nodes]
  relationships := detaches.relationships
  catalog := detaches.catalog
  indexes other stored' := by
    cases stored.symm.trans stored'
    rw [← detaches.indexes]
    rfl
  nodeCount := by
    have same : g'.node? id = g.node? id := by rw [node?, node?, detaches.nodes]
    rw [nodeCount_strikeNode (same.trans stored), nodeCount, nodeCount, detaches.nodes]
  relationshipCount := detaches.count

theorem deleteNode_eq_error {id : NodeId} (dead : g.hasNode id = false) :
    deleteNode id g = (.error (.nodeNotFound id), g) := by
  rw [deleteNode, RefusableAction.bind_get, dead]
  rfl

/-- A live node is deleted after the relationships that it stands at an end of. -/
theorem Linked.deleteNode_eq_ok (linked : g.Linked) {id : NodeId} (live : g.hasNode id = true) :
    ∃ g', deleteNode id g = (.ok (g.adjacency.edgesInvolving id), g') ∧
      Deletes id (g.adjacency.edgesInvolving id) g g' := by
  obtain ⟨node, stored⟩ := hasNode_iff.1 live
  obtain ⟨g₁, detached, detaches⟩ := forM_deleteRelationship (g.edgesInvolving_nodup id)
    fun rel mem => by
      obtain ⟨rel', stored', _⟩ := linked.mem_edgesInvolving_iff.1 mem
      exact ⟨rel', stored'⟩
  have dropped : dropNode id g₁ = (.ok (), g₁.strikeNode id node) := by
    rw [dropNode, node?, detaches.nodes, ← node?, stored]
  refine ⟨g₁.strikeNode id node, ?_, detaches.strikeNode stored⟩
  rw [deleteNode, RefusableAction.bind_get, if_pos live,
    RefusableAction.bind_of_ok detached, RefusableAction.bind_of_ok dropped]
  rfl

end Graph

end PropertyGraph
