import PropertyGraph.Entity.Relationship
import PropertyGraph.Graph.IdSupply
import PropertyGraph.Graph.LabelCatalog
import PropertyGraph.Index.Adjacency
import PropertyGraph.Index.Registry

/-!
# The graph

The stored nodes and relationships, together with what is derived from them:
the label catalog, the nodes by label, the relationships by node and the
declared property indexes. This module reads; `PropertyGraph.Graph.Change` writes.
-/

namespace PropertyGraph

/-- How a graph behaves. -/
structure GraphConfig where
  /-- Check every property index after each mutation. -/
  verifyIndexes : Bool
  /-- Hand out the identities of deleted entities again. -/
  recycleIds : Bool
  deriving DecidableEq

namespace GraphConfig

/-- No checks, and no identity used twice. -/
def standard : GraphConfig := ⟨false, false⟩

/-- Every mutation is checked. -/
def strict : GraphConfig := ⟨true, false⟩

end GraphConfig

/-- A property graph. -/
structure Graph where
  config : GraphConfig
  nodes : OrderedMap NodeId Node
  relationships : OrderedMap RelId Relationship
  nodeIds : IdSupply
  relIds : IdSupply
  catalog : LabelCatalog
  labelIndex : Postings String NodeId
  adjacency : Adjacency
  indexes : IndexRegistry
  /-- What the self check after a mutation found wrong, oldest first. -/
  alarms : List IndexDrift

namespace Graph

/-- The graph without entities. -/
def empty (config : GraphConfig) : Graph :=
  { config
    nodes := ∅
    relationships := ∅
    nodeIds := .full
    relIds := .full
    catalog := .empty
    labelIndex := ∅
    adjacency := .empty
    indexes := .empty
    alarms := [] }

/-! ## Entities -/

/-- The node of an identity, if it is live. -/
def node? (g : Graph) (id : NodeId) : Option Node := g.nodes.get? id

/-- The relationship of an identity, if it is live. -/
def relationship? (g : Graph) (id : RelId) : Option Relationship := g.relationships.get? id

/-- Whether a node is live. -/
def hasNode (g : Graph) (id : NodeId) : Bool := g.nodes.contains id

/-- Whether a relationship is live. -/
def hasRelationship (g : Graph) (id : RelId) : Bool := g.relationships.contains id

/-- Whether an entity is live. -/
def contains (g : Graph) : EntityRef → Bool
  | .node id => g.hasNode id
  | .relationship id => g.hasRelationship id

/-- A property of a live entity. -/
def property? (g : Graph) (target : EntityRef) (key : String) : Option Value :=
  match target with
  | .node id => (g.node? id).bind fun node => node.get? key
  | .relationship id => (g.relationship? id).bind fun rel => rel.get? key

/-- Number of live nodes. -/
def nodeCount (g : Graph) : Nat := g.nodes.size

/-- Number of live relationships. -/
def relationshipCount (g : Graph) : Nat := g.relationships.size

/-- The live nodes, ascending. -/
def nodeIdList (g : Graph) : List NodeId := g.nodes.keys

/-! ## Labels and edges -/

/-- The nodes that carry a label, ascending. -/
def nodesWithLabel (g : Graph) (label : String) : List NodeId := g.labelIndex.members label

/-- How many nodes carry a label. -/
def labelCount (g : Graph) (label : String) : Nat := g.labelIndex.count label

/-- The relationships that leave a node, of one type or of all, ascending. -/
def edgesFrom (g : Graph) (node : NodeId) (type : Option String) : List RelId :=
  g.adjacency.edgesFrom node type

/-- The relationships that enter a node, of one type or of all, ascending. -/
def edgesTo (g : Graph) (node : NodeId) (type : Option String) : List RelId :=
  g.adjacency.edgesTo node type

/-- The relationships from one node to another, of one type or of all, ascending. -/
def edgesBetween (g : Graph) (source target : NodeId) (type : Option String) : List RelId :=
  (g.edgesFrom source type).filter fun id => match g.relationship? id with
    | some rel => rel.target = target
    | none => false

/-! ## Property indexes -/

/-- Whether an index is declared. -/
def hasIndex (g : Graph) (name : IndexName) : Bool := g.indexes.declares name

/-- The nodes of an index whose value stands in the relation to the operand. -/
def rangeScan (g : Graph) (name : IndexName) (op : CompareOp) (operand : Value) :
    Except GraphError (List NodeId) :=
  match g.indexes.get? name with
  | some index => .ok (index.scan op operand)
  | none => .error (.indexNotFound name.label name.property)

/-- Compare every index with the nodes it stands for. -/
def verifyIndexes (g : Graph) : Except IndexDrift Unit := g.indexes.verify g.nodes.values

/-- The check that a strict graph calls for after each mutation of a node. -/
def selfCheck (g : Graph) : Except IndexDrift Unit :=
  if g.config.verifyIndexes && !g.indexes.isEmpty then g.verifyIndexes else .ok ()

end Graph

end PropertyGraph
