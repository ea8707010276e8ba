import PropertyGraph.Proofs.Graph.Integrity

/-!
# What deleting a node takes

Deleting a live node never stops halfway: the adjacency lists exactly the live
relationships at the node, so each of them is there to be struck, and the node is
still there after them. What the graph has afterwards is what it had before, less
that node, those relationships and what was filed for them; the catalog and the
declared indexes stay, and so does every entry of another node.
-/

namespace PropertyGraph

open Std

namespace Graph

variable {g g' : Graph}

/-- The second graph is the first one without a node and these relationships: what
is stored and what is listed of the rest is as it was. -/
structure Loses (id : NodeId) (rels : List RelId) (g g' : Graph) : Prop where
  nodes : ∀ n, g'.node? n = if n = id then none else g.node? n
  relationships : ∀ n, g'.relationship? n = if n ∈ rels then none else g.relationship? n
  config : g'.config = g.config
  catalog : g'.catalog = g.catalog
  alarms : g'.alarms = g.alarms
  declared : g'.indexes.names = g.indexes.names
  filed : ∀ name, (g'.indexes.get? name).map PropertyIndex.toList =
    (g.indexes.get? name).map fun index => index.toList.filter fun e => e.2 != id
  labelled : ∀ label, g'.nodesWithLabel label = (g.nodesWithLabel label).filter fun n => n != id
  leaving : ∀ node type,
    g'.edgesFrom node type = (g.edgesFrom node type).filter fun rel => rel ∉ rels
  entering : ∀ node type,
    g'.edgesTo node type = (g.edgesTo node type).filter fun rel => rel ∉ rels

/-! ## What is listed of the rest -/

/-- Of the nodes of a label those are left that were not deleted. -/
theorem Labelled.nodesWithLabel_eq_filter (labelled : g.Labelled) (labelled' : g'.Labelled)
    {id : NodeId} (nodes : ∀ n, g'.node? n = if n = id then none else g.node? n)
    (label : String) :
    g'.nodesWithLabel label = (g.nodesWithLabel label).filter fun n => n != id := by
  refine eq_of_ascending (g'.nodesWithLabel_ascending label)
    ((g.nodesWithLabel_ascending label).filter _) fun n => ?_
  rw [List.mem_filter, labelled.mem_nodesWithLabel_iff, labelled'.mem_nodesWithLabel_iff, nodes]
  by_cases same : n = id <;> simp [same]

/-- Of the relationships that satisfy a condition those are left that were not
deleted. -/
theorem Lists.eq_filter {ids ids' rels : List RelId} {condition : Relationship → Prop}
    (lists : g.Lists ids condition) (lists' : g'.Lists ids' condition)
    (relationships : ∀ n, g'.relationship? n = if n ∈ rels then none else g.relationship? n) :
    ids' = ids.filter fun rel => rel ∉ rels := by
  refine eq_of_ascending lists'.ascending (lists.ascending.filter _) fun n => ?_
  rw [List.mem_filter, lists.mem, lists'.mem, relationships]
  by_cases gone : n ∈ rels <;> simp [gone]

/-- Of the entries of an index those are left that are not of the node. -/
theorem Indexed.toList_strikeNode (indexed : g.Indexed) {id : NodeId} {node : Node}
    (proper : node.Proper id) (stored : g.node? id = some node) (name : IndexName) :
    ((g.indexes.nodeDeleted node).get? name).map PropertyIndex.toList =
      (g.indexes.get? name).map fun index => index.toList.filter fun e => e.2 != id := by
  rw [IndexRegistry.get?_nodeDeleted proper.labels, Option.map_map, proper.own]
  refine Option.map_congr fun index found => ?_
  have has : IndexRegistry.population g.node? name id = name.filed? node := by
    rw [IndexRegistry.population, stored, Option.bind_some]
  rw [← (indexed name index found).toList_strike id, has]
  rfl

/-! ## The deletion -/

/-- A live node of a reachable graph is deleted together with the relationships at it,
and the graph loses nothing else. -/
theorem Reachable.deleteNode_loses (reachable : g.Reachable) {id : NodeId}
    (live : g.hasNode id = true) :
    ∃ g', deleteNode id g = (.ok (g.adjacency.edgesInvolving id), g') ∧
      g.Loses id (g.adjacency.edgesInvolving id) g' := by
  obtain ⟨node, stored⟩ := hasNode_iff.1 live
  have coherent := reachable.coherent
  obtain ⟨g', ran, deletes⟩ := coherent.linked.deleteNode_eq_ok live
  have coherent' : g'.Coherent := by
    have after := (reachable.after (.deleteNode id)).coherent
    rwa [Graph.after, ran] at after
  have proper := coherent.stored.nodes id node stored
  refine ⟨g', ran, deletes.nodes, deletes.relationships, deletes.config, deletes.catalog,
    coherent'.quiet.trans coherent.quiet.symm, ?_, fun name => ?_,
    coherent.labelled.nodesWithLabel_eq_filter coherent'.labelled deletes.nodes,
    fun node type => ?_, fun node type => ?_⟩
  · rw [deletes.indexes node stored, IndexRegistry.names_nodeDeleted]
  · rw [deletes.indexes node stored, coherent.indexed.toList_strikeNode proper stored]
  · exact (lists_atNode coherent.linked.leaving node type).eq_filter
      (lists_atNode coherent'.linked.leaving node type) deletes.relationships
  · exact (lists_atNode coherent.linked.entering node type).eq_filter
      (lists_atNode coherent'.linked.entering node type) deletes.relationships

/-- In a reachable graph the deletion of a live node succeeds. It answers exactly the
relationships that have the node at an end, each once and ascending, and the graph
loses that node and those relationships and nothing else. The deletion of a node that
is not live fails and changes nothing. -/
theorem deleteNode_exact (reachable : g.Reachable) (id : NodeId) :
    (g.hasNode id = true → ∃ rels g', deleteNode id g = (.ok rels, g') ∧
      g.Lists rels (fun rel => rel.source = id ∨ rel.target = id) ∧ g.Loses id rels g') ∧
    (g.hasNode id = false → deleteNode id g = (.error (.nodeNotFound id), g)) := by
  have coherent := reachable.coherent
  refine ⟨fun live => ?_, deleteNode_eq_error⟩
  obtain ⟨g', ran, loses⟩ := reachable.deleteNode_loses live
  refine ⟨_, g', ran, ⟨fun n => ?_, OrderedSet.toList_ascending _⟩, loses⟩
  rw [coherent.linked.mem_edgesInvolving_iff]
  simp [Relationship.involves]

theorem deleteNode_exact_with_loop_and_index :
    let name : IndexName := ⟨"Person", "age"⟩
    let g := (Graph.empty ⟨true, true⟩).afterAll
      [.createNode ["Person"] [("age", .bool true)],
        .createNode ["Person", "Owner"] [("age", .bool true)],
        .createNode [] [], .createIndex name, .createRelationship "knows" ⟨2⟩ ⟨1⟩ [],
        .createRelationship "likes" ⟨3⟩ ⟨1⟩ [], .createRelationship "knows" ⟨2⟩ ⟨2⟩ [],
        .createRelationship "likes" ⟨3⟩ ⟨2⟩ []]
    g.Reachable ∧ g.hasNode ⟨2⟩ = true ∧ g.hasNode ⟨4⟩ = false ∧
      g.adjacency.edgesInvolving ⟨2⟩ = [⟨1⟩, ⟨3⟩, ⟨4⟩] ∧
      (∃ rels g', deleteNode ⟨2⟩ g = (.ok rels, g') ∧
        g.Lists rels (fun rel => rel.source = ⟨2⟩ ∨ rel.target = ⟨2⟩) ∧ g.Loses ⟨2⟩ rels g') ∧
      ((deleteNode ⟨2⟩ g).2.indexes.get? name).map PropertyIndex.toList =
        some [(.bool true, ⟨1⟩)] ∧
      deleteNode ⟨4⟩ g = (.error (.nodeNotFound ⟨4⟩), g) := by
  intro name g
  have reachable : g.Reachable := (Reachable.empty _).afterAll _
  exact ⟨reachable, by decide, by decide, by decide, (deleteNode_exact reachable _).1 (by decide),
    by decide, (deleteNode_exact reachable _).2 (by decide)⟩

end Graph

end PropertyGraph
