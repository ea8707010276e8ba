import PropertyGraph.Value.Basic

/-!
# Paths

A path describes a chain of nodes joined by relationships, `(a)-[r]->(b)<-[s]-(c)`.
It is taken as given: whether its parts fit together is decided when paths are
joined into a pattern.
-/

namespace PropertyGraph

/-- The direction of a relationship, read from left to right. -/
inductive Direction where
  | outgoing
  | incoming
  deriving DecidableEq

/-- What a path says of a node. -/
structure NodeDescriptor where
  var : Option String
  label : Option String
  literals : List (String × Value)
  deriving DecidableEq

/-- What a path says of a relationship. -/
structure RelDescriptor where
  var : Option String
  type : String
  direction : Direction
  literals : List (String × Value)
  deriving DecidableEq

/-- Nodes and the relationships between neighbouring ones. -/
structure Path where
  nodes : List NodeDescriptor
  rels : List RelDescriptor
  deriving DecidableEq

end PropertyGraph
