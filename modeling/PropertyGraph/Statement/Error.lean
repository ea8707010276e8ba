import PropertyGraph.Pattern.Error

/-!
# Execution errors

Why the execution of a statement was broken off.
-/

namespace PropertyGraph

/-- Why the execution of a statement was broken off. -/
inductive ExecutionError where
  | unboundVariable (name : String)
  | boundConstraintViolation (var : String)
  | boundRelationship (var : String)
  | deletedEntity (var : String) (entity : EntityRef)
  | labelOnRelationship (var : String)
  | pattern (cause : PatternError)
  | graph (cause : GraphError)
  deriving DecidableEq

/-- The message of an error. -/
def ExecutionError.message : ExecutionError → String
  | .unboundVariable name => "Unbound variable: " ++ name
  | .boundConstraintViolation var =>
    "Bound variable '" ++ var ++ "' does not satisfy its pattern constraints"
  | .boundRelationship var =>
    "Relationship variable '" ++ var ++ "' is already bound and cannot be created"
  | .deletedEntity var entity =>
    "Entity " ++ entity.text ++ " bound to '" ++ var ++ "' was deleted earlier in this statement"
  | .labelOnRelationship var => "Invalid update on '" ++ var ++ "': labels apply to nodes only"
  | .pattern cause => "Pattern error: " ++ cause.message
  | .graph cause => "Graph error: " ++ cause.message

end PropertyGraph
