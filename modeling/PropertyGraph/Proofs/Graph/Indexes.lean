import PropertyGraph.Proofs.Graph.Storage
import PropertyGraph.Proofs.Index.Verification

/-!
# Property indexes of a graph

Every declared index of a graph mirrors its nodes. A write to a node is followed
by one hook of the registry, and each hook files that node anew where its value
for an index can have changed; declaring an index fills it from the stored
nodes. The self check after a write therefore never raises an alarm.
-/

namespace PropertyGraph

open Std

namespace Graph

variable {g g' : Graph}

/-! ## The stored nodes as a list -/

theorem Stored.enumerates (stored : g.Stored) : Enumerates g.nodes.values g.node? where
  mem_iff node := by
    rw [OrderedMap.mem_values_iff]
    constructor
    · intro given
      rcases given with ⟨id, found⟩
      rw [(stored.nodes id node found).own]
      exact found
    · exact fun found => ⟨node.id, found⟩
  proper := stored.nodes
  distinct := by
    refine List.pairwise_map.2 (List.Pairwise.imp_of_mem (fun {a b} amem bmem lt same => ?_)
      g.nodes.ascending)
    have left := (stored.nodes a.1 a.2 (OrderedMap.get?_of_mem amem)).own
    have right := (stored.nodes b.1 b.2 (OrderedMap.get?_of_mem bmem)).own
    have equal : compare a.1 a.1 = .eq := ReflCmp.compare_self
    rw [← right, ← same, left, equal] at lt
    cases lt

/-! ## What the hooks follow -/

theorem follows_storeNode (free : g.node? g.takeNodeId.1 = none) (labels : List String)
    (properties : List (String × Value)) :
    IndexRegistry.Follows g.takeNodeId.1 g.node? (g.createNode labels properties).2.node?
      g.indexes (g.createNode labels properties).2.indexes := by
  intro name
  have proper := Node.Proper.create g.takeNodeId.1 labels properties
  refine ⟨_, IndexRegistry.get?_nodeCreated proper.labels g.indexes name, fun index => .inl ?_⟩
  have after : (g.createNode labels properties).2.node? g.takeNodeId.1 =
      some (.create g.takeNodeId.1 labels properties) := OrderedMap.get?_insert_self _ _ _
  rw [IndexRegistry.population, IndexRegistry.population, free, after]
  rfl

/-- Giving a node a label files it in the indexes of that label. -/
theorem follows_storeLabel {id : NodeId} {node node' : Node} {label : String}
    (own : node.id = id) (found : g.node? id = some node)
    (attached : node.attach? label = some node') :
    IndexRegistry.Follows id g.node? (g.storeLabel id node' label).node?
      g.indexes (g.storeLabel id node' label).indexes := by
  obtain ⟨lacking, rfl⟩ := Node.attach?_eq_some_iff.1 attached
  intro name
  refine ⟨_, IndexRegistry.get?_fileUnder g.indexes label _ _ name, fun index => ?_⟩
  rw [IndexRegistry.population, IndexRegistry.population, found,
    show (g.storeLabel id _ label).node? id = _ from OrderedMap.get?_insert_self _ _ _]
  by_cases same : name.label = label
  · subst same
    left
    have before : name.filed? node = none := by rw [IndexName.filed?, lacking]; rfl
    have after : name.filed? { node with labels := node.labels ++ [name.label] } =
        node.get? name.property := by simp [IndexName.filed?, Node.hasLabel, Node.get?]
    rw [if_pos rfl, Option.bind_some, Option.bind_some, before, after, ← own]
    rfl
  · right
    simp [IndexName.filed?, Node.hasLabel, Node.get?, same]

/-- Taking a label from a node withdraws it from the indexes of that label. -/
theorem follows_strikeLabel {id : NodeId} {node node' : Node} {label : String}
    (own : node.id = id) (found : g.node? id = some node)
    (detached : node.detach? label = some node') :
    IndexRegistry.Follows id g.node? (g.strikeLabel id node' label).node?
      g.indexes (g.strikeLabel id node' label).indexes := by
  obtain ⟨carried, rfl⟩ := Node.detach?_eq_some_iff.1 detached
  intro name
  refine ⟨_, IndexRegistry.get?_fileUnder g.indexes label _ _ name, fun index => ?_⟩
  rw [IndexRegistry.population, IndexRegistry.population, found,
    show (g.strikeLabel id _ label).node? id = _ from OrderedMap.get?_insert_self _ _ _]
  by_cases same : name.label = label
  · subst same
    left
    have before : name.filed? node = node.get? name.property := by
      rw [IndexName.filed?, carried, if_pos rfl]
    have after : name.filed? { node with
        labels := node.labels.filter fun label => label != name.label } = none := by
      simp [IndexName.filed?, Node.hasLabel]
    rw [if_pos rfl, Option.bind_some, Option.bind_some, before, after, ← own]
    rfl
  · right
    simp [IndexName.filed?, Node.hasLabel, Node.get?, same]

/-- Writing a property files the node anew in the indexes of that property that are for
labels it carries. -/
theorem follows_storeProperty {id : NodeId} {node : Node} (proper : node.Proper id)
    (key : String) (value : Value) (found : g.node? id = some node) :
    IndexRegistry.Follows id g.node?
      (g.storeProperty id (node.write key value) key (node.get? key)).node?
      g.indexes (g.storeProperty id (node.write key value) key (node.get? key)).indexes := by
  intro name
  refine ⟨_, IndexRegistry.get?_propertyChanged (proper.write key value).labels g.indexes key
    _ _ name, fun index => ?_⟩
  rw [IndexRegistry.population, IndexRegistry.population, found,
    show (g.storeProperty id _ key _).node? id = _ from OrderedMap.get?_insert_self _ _ _]
  have labels : (node.write key value).labels = node.labels := rfl
  by_cases carried : name.label ∈ node.labels
  · by_cases same : name.property = key
    · left
      subst same
      simp [IndexName.filed?, Node.hasLabel, carried, Node.write, proper.own]
    · right
      have kept := Properties.get?_write_of_ne node.properties value same
      simp [IndexName.filed?, Node.hasLabel, carried, same, Node.get?, Node.write, kept]
  · right
    simp [IndexName.filed?, Node.hasLabel, labels, carried]

theorem follows_strikeNode {id : NodeId} {node : Node} (proper : node.Proper id)
    (found : g.node? id = some node) :
    IndexRegistry.Follows id g.node? (g.strikeNode id node).node?
      g.indexes (g.strikeNode id node).indexes := by
  intro name
  refine ⟨_, IndexRegistry.get?_nodeDeleted proper.labels g.indexes name, fun index => .inl ?_⟩
  rw [IndexRegistry.population, IndexRegistry.population, found,
    show (g.strikeNode id node).node? id = _ from OrderedMap.get?_erase_self _ _, proper.own]
  rfl

/-! ## The declared indexes -/

/-- Every declared index mirrors the nodes. -/
def Indexed (g : Graph) : Prop := g.indexes.Mirrors g.node?

theorem Indexed.empty (config : GraphConfig) : (Graph.empty config).Indexed := by
  intro name index found
  cases found

theorem Indexed.declareIndex (indexed : g.Indexed) (stored : g.Stored) {name : IndexName}
    {indexes : IndexRegistry} (declared : g.indexes.declare name g.nodes.values = .ok indexes) :
    indexes.Mirrors g.node? := by
  rw [IndexRegistry.declare] at declared
  split at declared
  · cases declared
  · cases declared
    intro q index found
    by_cases same : q = name
    · subst same
      cases (OrderedMap.get?_insert_self _ _ _).symm.trans found
      exact IndexRegistry.mirrors_filled stored.enumerates q
    · exact indexed q index ((OrderedMap.get?_insert_of_ne _ _ same).symm.trans found)

theorem Indexed.dropIndex (indexed : g.Indexed) {name : IndexName} {indexes : IndexRegistry}
    (dropped : g.indexes.drop name = .ok indexes) : indexes.Mirrors g.node? := by
  rw [IndexRegistry.drop] at dropped
  split at dropped
  · cases dropped
    intro q index found
    by_cases same : q = name
    · subst same
      cases (OrderedMap.get?_erase_self _ _).symm.trans found
    · exact indexed q index ((OrderedMap.get?_erase_of_ne _ same).symm.trans found)
  · cases dropped

/-- The indexes keep up with every write. An index that is declared only now is built from
the nodes there are. -/
theorem Indexed.write (indexed : g.Indexed) (stored : g.Stored) (step : Write g g') :
    g'.Indexed := by
  have proper' := (stored.write step).nodes
  cases step with
  | createNode labels properties =>
    exact indexed.follow (follows_storeNode stored.takeNodeId_free labels properties)
      (fun n other => OrderedMap.get?_insert_of_ne _ _ other) (proper' _)
  | @storeLabel id node _ _ found attached =>
    exact indexed.follow (follows_storeLabel (stored.nodes id node found).own found attached)
      (fun n other => OrderedMap.get?_insert_of_ne _ _ other) (proper' _)
  | @strikeLabel id node _ _ found detached =>
    exact indexed.follow (follows_strikeLabel (stored.nodes id node found).own found detached)
      (fun n other => OrderedMap.get?_insert_of_ne _ _ other) (proper' _)
  | @storeProperty id node key value found =>
    exact indexed.follow (follows_storeProperty (stored.nodes id node found) key value found)
      (fun n other => OrderedMap.get?_insert_of_ne _ _ other) (proper' _)
  | @strikeNode id node found =>
    exact indexed.follow (follows_strikeNode (stored.nodes id node found) found)
      (fun n other => OrderedMap.get?_erase_of_ne _ other) (proper' _)
  | writeRelationship _ _ _ => exact indexed
  | storeRelationship _ _ _ _ => exact indexed
  | strikeRelationship _ => exact indexed
  | declareIndex declared => exact indexed.declareIndex stored declared
  | dropIndex dropped => exact indexed.dropIndex dropped

/-! ## The self check -/

/-- The check finds nothing wrong with indexes that mirror the nodes. -/
theorem Indexed.verifyIndexes_eq_ok (indexed : g.Indexed) (stored : g.Stored) :
    g.verifyIndexes = .ok () :=
  IndexRegistry.verify_eq_ok stored.enumerates indexed

theorem Indexed.selfCheck_eq_ok (indexed : g.Indexed) (stored : g.Stored) :
    g.selfCheck = .ok () := by
  rw [selfCheck, indexed.verifyIndexes_eq_ok stored, ite_self]

/-- Auditing a graph whose indexes mirror its nodes raises no alarm. -/
theorem alarms_audited (indexed : g.audited.Indexed) (stored : g.audited.Stored) :
    g.audited.alarms = g.alarms := by
  have passed : g.selfCheck = .ok () := indexed.selfCheck_eq_ok stored
  rw [audited, passed]

/-- No write raises an alarm. -/
theorem Indexed.alarms_write (indexed : g.Indexed) (stored : g.Stored) (step : Write g g') :
    g'.alarms = g.alarms := by
  have indexed' := indexed.write stored step
  have stored' := stored.write step
  cases step with
  | createNode _ _ => exact alarms_audited indexed' stored'
  | storeLabel _ _ => exact alarms_audited indexed' stored'
  | strikeLabel _ _ => exact alarms_audited indexed' stored'
  | storeProperty _ _ _ => exact alarms_audited indexed' stored'
  | strikeNode _ => exact alarms_audited indexed' stored'
  | writeRelationship _ _ _ => rfl
  | storeRelationship _ _ _ _ => rfl
  | strikeRelationship _ => rfl
  | declareIndex _ => rfl
  | dropIndex _ => rfl

end Graph

end PropertyGraph
