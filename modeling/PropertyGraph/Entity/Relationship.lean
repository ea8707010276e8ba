import PropertyGraph.Entity.Id
import PropertyGraph.Entity.Properties

/-!
# Relationships

A relationship has one type, leads from its source node to its target node and
carries properties.
-/

namespace PropertyGraph

/-- A relationship. -/
structure Relationship where
  id : RelId
  type : String
  source : NodeId
  target : NodeId
  properties : Properties

namespace Relationship

/-- Whether the relationship has the node at either end. -/
def involves (rel : Relationship) (node : NodeId) : Bool :=
  rel.source = node || rel.target = node

/-- The value of a property. -/
def get? (rel : Relationship) (key : String) : Option Value := rel.properties.get? key

/-- The relationship with a property written; null removes the property. -/
def write (rel : Relationship) (key : String) (value : Value) : Relationship :=
  { rel with properties := rel.properties.write key value }

/-- A new relationship. Null properties are dropped. -/
def create (id : RelId) (type : String) (source target : NodeId)
    (properties : List (String × Value)) : Relationship :=
  { id, type, source, target, properties := Properties.ofPairs properties }

end Relationship

end PropertyGraph
