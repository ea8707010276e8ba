import PropertyGraph.Graph.Change

/-!
# Histories of a graph

An operation as a value, the graph that a list of operations leads to, and the
graphs that can be reached from an empty one. An operation that was refused is
part of a history like any other.
-/

namespace PropertyGraph

/-- One of the operations that write. -/
inductive Operation where
  | createNode (labels : List String) (properties : List (String × Value))
  | addLabel (id : NodeId) (label : String)
  | removeLabel (id : NodeId) (label : String)
  | setProperty (target : EntityRef) (key : String) (value : Value)
  | deleteNode (id : NodeId)
  | createRelationship (type : String) (source target : NodeId)
      (properties : List (String × Value))
  | deleteRelationship (id : RelId)
  | createIndex (name : IndexName)
  | dropIndex (name : IndexName)
  deriving DecidableEq

/-- Whether the operation declares or drops an index. -/
def Operation.isIndexing : Operation → Bool
  | .createIndex _ => true
  | .dropIndex _ => true
  | _ => false

namespace Graph

/-- The graph that an operation ends in, refused or not. -/
def after (g : Graph) : Operation → Graph
  | .createNode labels properties => (g.createNode labels properties).2
  | .addLabel id label => (addLabel id label g).2
  | .removeLabel id label => (removeLabel id label g).2
  | .setProperty target key value => (setProperty target key value g).2
  | .deleteNode id => (deleteNode id g).2
  | .createRelationship type source target properties =>
    (createRelationship type source target properties g).2
  | .deleteRelationship id => (deleteRelationship id g).2
  | .createIndex name => (createIndex name g).2
  | .dropIndex name => (dropIndex name g).2

/-- The graph that a list of operations leads to. -/
def afterAll (g : Graph) (operations : List Operation) : Graph := operations.foldl after g

/-- A graph that some operations lead to from an empty one. -/
inductive Reachable : Graph → Prop
  | empty (config : GraphConfig) : Reachable (.empty config)
  | after {g : Graph} (operation : Operation) : Reachable g → Reachable (g.after operation)

end Graph

end PropertyGraph
