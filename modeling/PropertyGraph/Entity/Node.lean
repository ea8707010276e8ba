import PropertyGraph.Entity.Id
import PropertyGraph.Entity.Properties

/-!
# Nodes

A node carries labels, in the order they were attached and none twice, and
properties.
-/

namespace PropertyGraph

/-- A node. -/
structure Node where
  id : NodeId
  labels : List String
  properties : Properties

namespace Node

/-- Whether the node carries a label. -/
def hasLabel (node : Node) (label : String) : Bool := node.labels.contains label

/-- The node with a label attached, or `none` if it carries the label already. -/
def attach? (node : Node) (label : String) : Option Node :=
  if node.hasLabel label then none else some { node with labels := node.labels ++ [label] }

/-- The node with a label detached, or `none` if it does not carry the label. -/
def detach? (node : Node) (label : String) : Option Node :=
  if node.hasLabel label then
    some { node with labels := node.labels.filter fun carried => carried != label }
  else none

/-- The value of a property. -/
def get? (node : Node) (key : String) : Option Value := node.properties.get? key

/-- The node with a property written; null removes the property. -/
def write (node : Node) (key : String) (value : Value) : Node :=
  { node with properties := node.properties.write key value }

/-- A new node. Repeated labels and null properties are dropped. -/
def create (id : NodeId) (labels : List String) (properties : List (String × Value)) : Node :=
  { id
    labels := labels.foldl
      (fun carried label => if carried.contains label then carried else carried ++ [label]) []
    properties := Properties.ofPairs properties }

end Node

end PropertyGraph
