import PropertyGraph.Proofs.BindingRow
import PropertyGraph.Proofs.Statement.Merge

/-!
# Instances of a pattern

Creating a pattern adds one instance of it: a new node for every node slot that
the row leaves open and a new relationship for every relationship slot, each just
as its slot describes it. Around them nothing changes. The catalog learns the
labels of the new nodes, and the answered row names the entities of the instance.
-/

namespace PropertyGraph

open Std

/-! ## Entities as slots describe them -/

/-- The properties of literals of a slot are those literals. -/
theorem Gathered.get?_ofPairs_iff {literals : List (String × Value)} (gathered : Gathered literals)
    {key : String} {value : Value} :
    (Properties.ofPairs literals).get? key = some value ↔ (key, value) ∈ literals :=
  ⟨Properties.mem_of_get?_ofPairs, fun mem =>
    Properties.get?_ofPairs_of_mem gathered.keys mem (gathered.noNull _ mem)⟩

/-- The node has the labels of the slot, in the order of the slot, and the
literals of the slot for properties, and no others. -/
structure NodeSlot.Describes (slot : NodeSlot) (node : Node) : Prop where
  labels : node.labels = slot.labels
  properties : ∀ key value, node.get? key = some value ↔ (key, value) ∈ slot.literals

/-- The relationship has the type of the slot and the literals of the slot for
properties, and no others. -/
structure RelSlot.Describes (slot : RelSlot) (rel : Relationship) : Prop where
  type : rel.type = slot.type
  properties : ∀ key value, rel.get? key = some value ↔ (key, value) ∈ slot.literals

theorem NodeSlot.describes_create {slot : NodeSlot} (labels : slot.labels.Nodup)
    (gathered : Gathered slot.literals) (id : NodeId) :
    slot.Describes (.create id slot.labels slot.literals) where
  labels := @Node.gathered_of_nodup _ [] labels
  properties _ _ := gathered.get?_ofPairs_iff

theorem RelSlot.describes_create {slot : RelSlot} (gathered : Gathered slot.literals) (id : RelId)
    (source target : NodeId) :
    slot.Describes (.create id slot.type source target slot.literals) where
  type := rfl
  properties _ _ := gathered.get?_ofPairs_iff

namespace Execution

variable {g g' : Graph} {p : Pattern} {row result : BindingRow} {m : Match} {x x' : Execution}

/-! ## Instances -/

/-- The node of an instance for a slot: the live one that the row binds, or one
that was not live before and is as the slot describes it. -/
structure NodeFor (before after : Graph) (row : BindingRow) (slot : NodeSlot) (id : NodeId) :
    Prop where
  bound : ∀ entity, slot.bound? row = some entity → entity = .node id ∧ before.hasNode id = true
  created : slot.bound? row = none → before.node? id = none ∧
    ∃ node, after.node? id = some node ∧ node.id = id ∧ slot.Describes node

/-- The relationship of an instance for a slot: it was not live before, is as the
slot describes it and leads between the nodes in the slots of its ends. -/
structure RelFor (before after : Graph) (nodes : List NodeId) (slot : RelSlot) (id : RelId) :
    Prop where
  free : before.relationship? id = none
  created : ∃ rel, after.relationship? id = some rel ∧ rel.id = id ∧ slot.Describes rel ∧
    nodes[slot.source]? = some rel.source ∧ nodes[slot.target]? = some rel.target

/-- The labels of the slots that the row leaves open, slot by slot. -/
def openLabels (p : Pattern) (row : BindingRow) : List String :=
  (p.nodes.filter fun slot => (slot.bound? row).isNone).flatMap NodeSlot.labels

/-- What one more instance of a pattern means: there is an entity for each slot,
the new ones are different from each other, everything else is as it was, the
catalog goes on with the labels it did not know, and the row answered names the
entities. -/
structure Instantiates (p : Pattern) (row : BindingRow) (before after : Graph) (m : Match)
    (result : BindingRow) : Prop where
  nodes : List.Forall₂ (NodeFor before after row) p.nodes m.nodes
  rels : List.Forall₂ (RelFor before after m.nodes) p.rels m.rels
  newNodes : (m.nodes.filter fun id => !before.hasNode id).Nodup
  newRels : m.rels.Nodup
  otherNodes : ∀ id, id ∉ m.nodes ∨ before.hasNode id = true → after.node? id = before.node? id
  otherRels : ∀ id, id ∉ m.rels → after.relationship? id = before.relationship? id
  catalog : after.catalog.labels = before.catalog.labels ++
    ((openLabels p row).filter fun label => !before.catalog.contains label).eraseDups
  binds : ∀ place name, p.var? place = some name →
    ∃ entity, m.assignment.entity? place = some entity ∧ result.get? name = some entity
  keeps : ∀ name, (∀ place, p.var? place ≠ some name) → result.get? name = row.get? name

/-! ## Creating an instance -/

/-- A match has an entity in every slot. -/
theorem exists_entity?_assignment {place : SlotRef} (nodes : m.nodes.length = p.nodes.length)
    (rels : m.rels.length = p.rels.length) (has : p.Has place) :
    ∃ entity, m.assignment.entity? place = some entity := by
  cases place with
  | node position =>
    have inside : position < m.nodes.length := nodes.symm ▸ has
    refine ⟨.node m.nodes[position], ?_⟩
    rw [Assignment.entity?, Graph.node?_assignment, List.getElem?_eq_getElem inside]
    rfl
  | rel position =>
    have inside : position < m.rels.length := rels.symm ▸ has
    refine ⟨.relationship m.rels[position], ?_⟩
    rw [Assignment.entity?, Graph.rel?_assignment, List.getElem?_eq_getElem inside]
    rfl

/-- The labels registered by filling the slots are those of the slots left open. -/
theorem Fills.catalog_eq {ids : List NodeId} (usable : ∀ slot ∈ p.nodes, slot.Usable g row)
    (fills : Fills (p.nodes.map fun slot => (slot, fixedNode row slot)) g ids g') :
    g'.catalog = (openLabels p row).foldl .register g.catalog := by
  rw [fills.catalog, List.filter_map, List.flatMap_map, openLabels,
    ← filter_fixedNode_isNone usable]
  rfl

theorem FilledFor.nodeFor {slot : NodeSlot} {id : NodeId} (filled : FilledFor g g' row slot id)
    (usable : slot.Usable g row) (labels : slot.labels.Nodup) (gathered : Gathered slot.literals) :
    NodeFor g g' row slot id where
  bound entity bound := by
    obtain ⟨id', rfl, live⟩ := usable entity bound
    cases filled.1 id' bound
    exact ⟨rfl, live⟩
  created unbound := by
    obtain ⟨free, stored⟩ := filled.2 unbound
    exact ⟨free, _, stored, rfl, slot.describes_create labels gathered id⟩

theorem ConnectedBy.relFor {nodes : List NodeId} {slot : RelSlot} {id : RelId}
    (connected : ConnectedBy g g' nodes slot id) (gathered : Gathered slot.literals) :
    RelFor g g' nodes slot id := by
  obtain ⟨free, source, target, from_, to_, stored⟩ := connected
  exact ⟨free, _, stored, rfl, slot.describes_create gathered id source target, from_, to_⟩

/-- A creation that passes the check adds one instance. -/
theorem instantiates_of_ok (stored : x.graph.Stored) (wellFormed : p.WellFormed) (tidy : p.Tidy)
    {bound : List (Option NodeId)} (checked : checkCreation x.graph p row = .ok bound) :
    ∃ m x', create p row x = (.ok (p.bindRow row m.assignment), x') ∧
      Instantiates p row x.graph x'.graph m (p.bindRow row m.assignment) := by
  obtain ⟨m, x₁, x', ran, fills, connects⟩ := create_runs stored wellFormed checked
  have usable := (of_checkCreation checked).2.1
  have creates := fills.creates usable connects
  have nodesSame : ∀ id, x'.graph.node? id = x₁.graph.node? id := fun id => by
    rw [Graph.node?, connects.nodes]
    rfl
  have relsSame : ∀ id, x₁.graph.relationship? id = x.graph.relationship? id := fun id => by
    rw [Graph.relationship?, fills.relationships]
    rfl
  refine ⟨m, x', ran, ?_, ?_, creates.newNodes, creates.newRels, ?_, ?_, ?_, ?_, ?_⟩
  · have each := (List.forall₂_and_left p.nodes m.nodes).2 ⟨fun _ mem => mem, creates.nodes⟩
    exact each.imp fun slot _ filled => filled.2.nodeFor (usable slot filled.1)
      (tidy.labels slot filled.1) (tidy.nodeLiterals slot filled.1)
  · have each := (List.forall₂_and_left p.rels m.rels).2 ⟨fun _ mem => mem, creates.rels⟩
    exact each.imp fun slot _ connected => connected.2.relFor (tidy.relLiterals slot connected.1)
  · intro id either
    rcases either with absent | live
    · rw [nodesSame, fills.elsewhere id absent]
    · obtain ⟨node, found⟩ := Graph.hasNode_iff.1 live
      rw [creates.keptNodes id node found, found]
  · intro id absent
    rw [connects.elsewhere id absent, relsSame]
  · rw [connects.catalog, fills.catalog_eq usable, LabelCatalog.labels_foldl_register]
  · intro place name named
    obtain ⟨entity, has⟩ := exists_entity?_assignment creates.nodes.length_eq.symm
      creates.rels.length_eq.symm (Pattern.has_of_var? named)
    exact ⟨entity, has, tidy.get?_bindRow row named has⟩
  · intro name unused
    exact Pattern.get?_bindRow_of_unused row unused

/-- A creation that succeeds passed the check. -/
theorem checkCreation_of_create (created : create p row x = (.ok result, x')) :
    ∃ bound, checkCreation x.graph p row = .ok bound := by
  cases checked : checkCreation x.graph p row with
  | ok bound => exact ⟨bound, rfl⟩
  | error e =>
    rw [create_of_error checked] at created
    cases created

theorem instantiates_of_create (stored : x.graph.Stored) (wellFormed : p.WellFormed)
    (tidy : p.Tidy) (created : create p row x = (.ok result, x')) :
    ∃ m, result = p.bindRow row m.assignment ∧ Instantiates p row x.graph x'.graph m result := by
  obtain ⟨bound, checked⟩ := checkCreation_of_create created
  obtain ⟨m, x'', ran, instantiates⟩ := instantiates_of_ok stored wellFormed tidy checked
  rw [ran] at created
  cases created
  exact ⟨m, rfl, instantiates⟩

/-- A merge that answers without a match has created. -/
theorem create_of_merge {rows : List BindingRow} (missed : x.graph.findAll p row = .ok [])
    (merged : merge p row x = (.ok rows, x')) :
    ∃ result, rows = [result] ∧ create p row x = (.ok result, x') := by
  rw [merge_of_nil missed] at merged
  rcases ran : create p row x with ⟨e | result, x''⟩
  · rw [RefusableAction.bind_of_error ran] at merged
    cases merged
  · rw [RefusableAction.bind_of_ok ran] at merged
    cases merged
    exact ⟨result, rfl, rfl⟩

/-- In an execution on a reachable graph every creation of a pattern of paths
that succeeds, and every merge that finds no match and succeeds, adds exactly one
instance of the pattern. -/
theorem create_instantiates (x : Execution) (reachable : x.graph.Reachable) {paths : List Path}
    (compiled : Pattern.ofPaths paths = .ok p) (row : BindingRow) :
    (∀ result x', create p row x = (.ok result, x') →
      ∃ m, Instantiates p row x.graph x'.graph m result) ∧
      ∀ rows x', x.graph.findAll p row = .ok [] → merge p row x = (.ok rows, x') →
        ∃ m result, rows = [result] ∧ Instantiates p row x.graph x'.graph m result := by
  have stored := reachable.coherent.stored
  have wellFormed := Pattern.wellFormed_of_ofPaths compiled
  have tidy := Pattern.tidy_of_ofPaths compiled
  constructor
  · intro result x' created
    obtain ⟨m, _, instantiates⟩ := instantiates_of_create stored wellFormed tidy created
    exact ⟨m, instantiates⟩
  · intro rows x' missed merged
    obtain ⟨result, rfl, created⟩ := create_of_merge missed merged
    obtain ⟨m, _, instantiates⟩ := instantiates_of_create stored wellFormed tidy created
    exact ⟨m, result, rfl, instantiates⟩

/-- The bound person is kept, and a dog and what ties it to the person are new. -/
theorem create_instantiates_around_bound_node :
    let path : Path := ⟨[⟨some "p", some "Person", []⟩, ⟨some "d", some "Dog", [("age", .int 3)]⟩],
      [⟨some "r", "owns", .outgoing, []⟩]⟩
    let p : Pattern := ⟨[⟨some "p", ["Person"], []⟩, ⟨some "d", ["Dog"], [("age", .int 3)]⟩],
      [⟨some "r", "owns", 0, 1, []⟩], [.node 0, .rel 0, .node 1]⟩
    let x := start ((Graph.empty .standard).afterAll [.createNode ["Person"] []])
    let row : BindingRow := ⟨[("p", .node ⟨1⟩)]⟩
    let result : BindingRow := ⟨[("p", .node ⟨1⟩), ("r", .relationship ⟨1⟩), ("d", .node ⟨2⟩)]⟩
    x.graph.Reachable ∧ Pattern.ofPaths [path] = .ok p ∧
      (create p row x).1 = .ok result ∧ x.graph.findAll p row = .ok [] ∧
      (merge p row x).1 = .ok [result] ∧
      (∃ m, Instantiates p row x.graph (create p row x).2.graph m result) ∧
      ∃ m, Instantiates p row x.graph (merge p row x).2.graph m result := by
  intro path p x row result
  have reachable : x.graph.Reachable := (Graph.Reachable.empty .standard).afterAll _
  have compiled : Pattern.ofPaths [path] = .ok p := rfl
  have created : (create p row x).1 = .ok result := by decide +kernel
  have missed : x.graph.findAll p row = .ok [] := by decide +kernel
  have merged : (merge p row x).1 = .ok [result] := by decide +kernel
  obtain ⟨creates, merges⟩ := create_instantiates x reachable compiled row
  obtain ⟨m, other, same, instantiates⟩ := merges [result] _ missed (Prod.ext merged rfl)
  cases same
  exact ⟨reachable, compiled, created, missed, merged,
    creates result _ (Prod.ext created rfl), m, instantiates⟩

end Execution

end PropertyGraph
