import PropertyGraph.Graph.Basic

/-!
# Changing the graph

The operations that write. Each keeps the derived structures in step with the
stored entities, and each answers an error before it writes anything. An
operation that fails still ends in a graph: whatever had been written by then
stays. A mutation of a node ends with the self check, which raises an alarm if
an index has drifted and never stops the operation.
-/

namespace PropertyGraph

namespace Graph

/-- An operation on the graph that may be refused. -/
abbrev Action (α : Type) := ExceptT GraphError (StateM Graph) α

/-- The graph with an alarm for what its self check finds wrong. -/
def audited (g : Graph) : Graph :=
  { g with
    alarms := match g.selfCheck with
      | .ok () => g.alarms
      | .error drift => g.alarms ++ [drift] }

/-! ## Identities -/

/-- Take a node identity out of the supply. -/
def takeNodeId (g : Graph) : NodeId × Graph :=
  let (number, nodeIds) := g.nodeIds.take
  (⟨number⟩, { g with nodeIds })

/-- Take a relationship identity out of the supply. -/
def takeRelId (g : Graph) : RelId × Graph :=
  let (number, relIds) := g.relIds.take
  (⟨number⟩, { g with relIds })

/-- Give identities back, if the graph hands them out again. -/
def giveBack (g : Graph) (supply : IdSupply) (number : Nat) : IdSupply :=
  if g.config.recycleIds then supply.giveBack number else supply

/-! ## Nodes -/

/-- Enter a node, its labels and its index entries. -/
def storeNode (g : Graph) (node : Node) : Graph :=
  audited { g with
    nodes := g.nodes.insert node.id node
    catalog := node.labels.foldl .register g.catalog
    labelIndex := node.labels.foldl (fun index label => index.post label node.id) g.labelIndex
    indexes := g.indexes.nodeCreated node }

/-- Create a node. Repeated labels and null properties are dropped. -/
def createNode (g : Graph) (labels : List String) (properties : List (String × Value)) :
    NodeId × Graph :=
  let (id, g) := g.takeNodeId
  (id, g.storeNode (Node.create id labels properties))

/-- Replace a node by itself with one label more. -/
def storeLabel (g : Graph) (id : NodeId) (node : Node) (label : String) : Graph :=
  audited { g with
    nodes := g.nodes.insert id node
    catalog := g.catalog.register label
    labelIndex := g.labelIndex.post label id
    indexes := g.indexes.labelAdded node label }

/-- Attach a label; answers whether the node did not carry it. -/
def addLabel (id : NodeId) (label : String) : Action Bool := fun g =>
  match g.node? id with
  | none => (.error (.nodeNotFound id), g)
  | some node => match node.attach? label with
    | none => (.ok false, g)
    | some node => (.ok true, g.storeLabel id node label)

/-- Replace a node by itself with one label less. -/
def strikeLabel (g : Graph) (id : NodeId) (node : Node) (label : String) : Graph :=
  audited { g with
    nodes := g.nodes.insert id node
    labelIndex := g.labelIndex.withdraw label id
    indexes := g.indexes.labelRemoved node label }

/-- Detach a label; answers whether the node carried it. -/
def removeLabel (id : NodeId) (label : String) : Action Bool := fun g =>
  match g.node? id with
  | none => (.error (.nodeNotFound id), g)
  | some node => match node.detach? label with
    | none => (.ok false, g)
    | some node => (.ok true, g.strikeLabel id node label)

/-- Replace a node by itself with a property written that had the value `old`. -/
def storeProperty (g : Graph) (id : NodeId) (node : Node) (key : String)
    (old : Option Value) : Graph :=
  audited { g with
    nodes := g.nodes.insert id node
    indexes := g.indexes.propertyChanged node key old (node.get? key) }

/-- Set a property of an entity; answers the value it had. Null removes the
property. -/
def setProperty (target : EntityRef) (key : String) (value : Value) :
    Action (Option Value) := fun g =>
  match target with
  | .node id => match g.node? id with
    | none => (.error (.nodeNotFound id), g)
    | some node =>
      let old := node.get? key
      (.ok old, g.storeProperty id (node.write key value) key old)
  | .relationship id => match g.relationship? id with
    | none => (.error (.relationshipNotFound id), g)
    | some rel =>
      (.ok (rel.get? key),
        { g with relationships := g.relationships.insert id (rel.write key value) })

/-! ## Relationships -/

/-- Enter a relationship at both its ends. -/
def storeRelationship (g : Graph) (rel : Relationship) : Graph :=
  { g with
    relationships := g.relationships.insert rel.id rel
    adjacency := g.adjacency.add rel.id rel.type rel.source rel.target }

/-- Create a relationship. The type must not be empty and both ends must be
live; the source is looked at first. -/
def createRelationship (type : String) (source target : NodeId)
    (properties : List (String × Value)) : Action RelId := fun g =>
  if type.isEmpty then (.error .emptyRelationshipType, g)
  else if !g.hasNode source then (.error (.nodeNotFound source), g)
  else if !g.hasNode target then (.error (.nodeNotFound target), g)
  else
    let (id, g) := g.takeRelId
    (.ok id, g.storeRelationship (.create id type source target properties))

/-- Take a relationship out at both its ends. -/
def strikeRelationship (g : Graph) (id : RelId) (rel : Relationship) : Graph :=
  { g with
    relationships := g.relationships.erase id
    adjacency := g.adjacency.remove id rel.type rel.source rel.target
    relIds := g.giveBack g.relIds id.number }

/-- Delete a relationship. -/
def deleteRelationship (id : RelId) : Action Unit := fun g =>
  match g.relationship? id with
  | none => (.error (.relationshipNotFound id), g)
  | some rel => (.ok (), g.strikeRelationship id rel)

/-! ## Deleting nodes -/

/-- Take a node out, with its labels and its index entries. -/
def strikeNode (g : Graph) (id : NodeId) (node : Node) : Graph :=
  audited { g with
    nodes := g.nodes.erase id
    labelIndex := node.labels.foldl (fun index label => index.withdraw label id) g.labelIndex
    indexes := g.indexes.nodeDeleted node
    nodeIds := g.giveBack g.nodeIds id.number }

/-- Delete a node that no relationship is left at. -/
def dropNode (id : NodeId) : Action Unit := fun g =>
  match g.node? id with
  | none => (.error (.nodeNotFound id), g)
  | some node => (.ok (), g.strikeNode id node)

/-- Delete a node after every relationship at either end of which it stands;
answers those relationships. -/
def deleteNode (id : NodeId) : Action (List RelId) := do
  let g ← get
  if g.hasNode id then
    let rels := g.adjacency.edgesInvolving id
    rels.forM deleteRelationship
    dropNode id
    return rels
  else throw (.nodeNotFound id)

/-! ## Property indexes -/

/-- Declare an index over the stored nodes. -/
def createIndex (name : IndexName) : Action Unit := fun g =>
  match g.indexes.declare name g.nodes.values with
  | .ok indexes => (.ok (), { g with indexes })
  | .error e => (.error e, g)

/-- Drop an index. -/
def dropIndex (name : IndexName) : Action Unit := fun g =>
  match g.indexes.drop name with
  | .ok indexes => (.ok (), { g with indexes })
  | .error e => (.error e, g)

end Graph

end PropertyGraph
