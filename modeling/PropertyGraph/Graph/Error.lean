import PropertyGraph.Entity.Id

/-!
# Graph errors

Why an operation on the graph was refused.
-/

namespace PropertyGraph

/-- Why an operation on the graph was refused. -/
inductive GraphError where
  | nodeNotFound (id : NodeId)
  | relationshipNotFound (id : RelId)
  | indexAlreadyExists (label property : String)
  | indexNotFound (label property : String)
  | emptyRelationshipType
  deriving DecidableEq

/-- The message of an error. -/
def GraphError.message : GraphError → String
  | .nodeNotFound id => "Node not found: " ++ id.text
  | .relationshipNotFound id => "Relationship not found: " ++ id.text
  | .indexAlreadyExists label property =>
    "Index already exists: :" ++ label ++ "(" ++ property ++ ")"
  | .indexNotFound label property => "Index not found: :" ++ label ++ "(" ++ property ++ ")"
  | .emptyRelationshipType => "Invalid operation: relationship type must not be empty"

end PropertyGraph
