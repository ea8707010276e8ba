import PropertyGraph.Graph.Error

/-!
# Pattern errors

Why paths form no pattern, or a pattern cannot be matched from a row. Errors of
the first kind concern the definition alone and never depend on the graph.
-/

namespace PropertyGraph

/-- Why a pattern was refused. -/
inductive PatternError where
  | emptyPattern
  | malformedPath (nodes rels : Nat)
  | missingRelType
  | conflictingProperty (var key : String)
  | nullProperty (var key : String)
  | variableKindConflict (name : String)
  | duplicateRelVariable (name : String)
  | bindingKindMismatch (name : String) (expected found : EntityKind)
  | graph (cause : GraphError)
  deriving DecidableEq

namespace PatternError

/-- The message of an error. -/
def message : PatternError → String
  | .emptyPattern => "Pattern is empty"
  | .malformedPath nodes rels =>
    "Path with " ++ toString nodes ++ " node(s) cannot hold " ++ toString rels ++
      " relationship(s)"
  | .missingRelType => "Relationship descriptor requires a type"
  | .conflictingProperty var key =>
    "Conflicting values for property '" ++ key ++ "' of '" ++ var ++ "'"
  | .nullProperty var key => "Null literal for property '" ++ key ++ "' of '" ++ var ++ "'"
  | .variableKindConflict name =>
    "Variable '" ++ name ++ "' is used both as a node and as a relationship"
  | .duplicateRelVariable name =>
    "Relationship variable '" ++ name ++ "' is used more than once"
  | .bindingKindMismatch name expected found =>
    "Variable '" ++ name ++ "' is bound to a " ++ found.text ++ ", expected a " ++
      expected.text
  | .graph cause => "Graph error: " ++ cause.message

/-- Whether the error concerns the definition of the pattern. -/
def isDefinition : PatternError → Bool
  | .bindingKindMismatch .. => false
  | .graph _ => false
  | _ => true

end PatternError

end PropertyGraph
