import PropertyGraph.Graph.Change
import PropertyGraph.Match.Search
import PropertyGraph.Statement.Error
import PropertyGraph.Statement.Statistics

/-!
# Executing a statement

One execution carries a statement through: the graph it works on, the counters
of what it changed, and the entities that it removed. The steps of a statement
are to merge a pattern, to create one, to apply updates to a row and to delete
an entity. A step that fails leaves what was done before it.
-/

namespace PropertyGraph

/-- A statement under way. -/
structure Execution where
  graph : Graph
  stats : Statistics
  /-- The labels counted as added so far. -/
  newLabels : List String
  /-- The entities removed by this statement and not created again since. -/
  deleted : List EntityRef

/-- A change to the entity that a variable is bound to. -/
inductive UpdateAction where
  | setProperty (key : String) (value : Value)
  | removeProperty (key : String)
  | addLabel (label : String)
  | removeLabel (label : String)
  | delete
  deriving DecidableEq

/-- A variable and the change to what it is bound to. -/
structure Update where
  var : String
  action : UpdateAction
  deriving DecidableEq

namespace Execution

/-- The execution of a statement on a graph, before its first step. -/
def start (graph : Graph) : Execution := ⟨graph, .none, [], []⟩

/-- A step of a statement that may fail. -/
abbrev Action (α : Type) := ExceptT ExecutionError (StateM Execution) α

/-! ## Counting -/

/-- Change the counters. -/
def count (change : Statistics → Statistics) : Action Unit :=
  modify fun x => { x with stats := change x.stats }

/-- Count a label, unless it was known to the graph or has been counted. -/
def countLabel (known : Bool) (label : String) (x : Execution) : Execution :=
  if known || x.newLabels.contains label then x
  else
    { x with
      newLabels := label :: x.newLabels
      stats := { x.stats with labelsAdded := x.stats.labelsAdded + 1 } }

/-- Note that entities were removed. -/
def noteDeleted (entities : List EntityRef) : Action Unit :=
  modify fun x => { x with deleted := entities ++ x.deleted }

/-- Note that an entity was created, whose identity may be a removed one's. -/
def noteCreated (entity : EntityRef) (x : Execution) : Execution :=
  { x with deleted := x.deleted.filter fun removed => removed != entity }

/-- Operate on the graph. -/
def onGraph {α : Type} (action : Graph.Action α) : Action α := fun x =>
  match action x.graph with
  | (.ok a, graph) => (.ok a, { x with graph })
  | (.error e, graph) => (.error (.graph e), { x with graph })

/-! ## Creating a pattern -/

/-- The node that a row binds a node slot to, which must be live and accepted
by the slot; none if the slot's variable is unbound. -/
def boundNode? (g : Graph) (row : BindingRow) (slot : NodeSlot) :
    Except ExecutionError (Option NodeId) :=
  match slot.bound? row with
  | none => .ok none
  | some (.relationship _) =>
    .error (.pattern (.bindingKindMismatch slot.displayName .node .relationship))
  | some (.node id) => match g.node? id with
    | none => .error (.graph (.nodeNotFound id))
    | some node =>
      if slot.accepts node then .ok (some id)
      else .error (.boundConstraintViolation slot.displayName)

/-- What has to hold before a pattern is created from a row: bound nodes are
live and accepted, and no relationship is bound. Answers the bound nodes. -/
def checkCreation (g : Graph) (p : Pattern) (row : BindingRow) :
    Except ExecutionError (List (Option NodeId)) := do
  let bound ← p.nodes.mapM (boundNode? g row)
  match p.rels.find? fun slot => (slot.bound? row).isSome with
  | some slot => throw (.boundRelationship slot.displayName)
  | none => return bound

/-- Create a node for a slot, counting its labels and properties. -/
def createSlotNode (slot : NodeSlot) (x : Execution) : NodeId × Execution :=
  let x := slot.labels.foldl (fun x label => x.countLabel (x.graph.catalog.contains label) label) x
  let stats := { x.stats with
    nodesCreated := x.stats.nodesCreated + 1
    propertiesSet := x.stats.propertiesSet + slot.properties.size }
  let (id, graph) := x.graph.createNode slot.labels slot.literals
  (id, noteCreated (.node id) { x with graph, stats })

/-- Fill the node slots: bound ones with their nodes, the others with new nodes. -/
def fillNodes : List (NodeSlot × Option NodeId) → Execution → List NodeId × Execution
  | [], x => ([], x)
  | (slot, bound) :: rest, x =>
    let (id, x) := match bound with
      | some id => (id, x)
      | none => createSlotNode slot x
    let (ids, x) := fillNodes rest x
    (id :: ids, x)

/-- Create a relationship for a slot between the nodes in the slots of its ends. -/
def createSlotRel (nodes : List NodeId) (slot : RelSlot) : Action RelId := do
  let source := nodes[slot.source]?.getD default
  let target := nodes[slot.target]?.getD default
  let id ← onGraph (Graph.createRelationship slot.type source target slot.literals)
  count fun s => { s with
    relationshipsCreated := s.relationshipsCreated + 1
    propertiesSet := s.propertiesSet + slot.properties.size }
  modify (noteCreated (.relationship id))
  return id

/-- Create one instance of a pattern around the nodes that a row binds; answers
the row extended by the pattern's variables. -/
def create (p : Pattern) (row : BindingRow) : Action BindingRow := do
  let bound ← MonadExcept.ofExcept (checkCreation (← get).graph p row)
  let nodes ← modifyGet (fillNodes (p.nodes.zip bound))
  let rels ← p.rels.mapM (createSlotRel nodes)
  return p.bindRow row ⟨nodes.map some, rels.map some⟩

/-! ## Merging a pattern -/

/-- The rows of all matches of a pattern or, if there is none, the row of a new
instance. -/
def merge (p : Pattern) (row : BindingRow) : Action (List BindingRow) := do
  match (← get).graph.findAll p row with
  | .error e => throw (.pattern e)
  | .ok [] => return [← create p row]
  | .ok rows => return rows

/-! ## Updates -/

/-- Write a property. Every write counts. -/
def setProperty (target : EntityRef) (key : String) (value : Value) : Action Unit := do
  let _ ← onGraph (Graph.setProperty target key value)
  count fun s => { s with propertiesSet := s.propertiesSet + 1 }

/-- Attach a label to a node. -/
def addLabel (var : String) (target : EntityRef) (label : String) : Action Unit :=
  match target with
  | .relationship _ => throw (.labelOnRelationship var)
  | .node id => do
    let known := (← get).graph.catalog.contains label
    if ← onGraph (Graph.addLabel id label) then modify (countLabel known label)

/-- Detach a label from a node. -/
def removeLabel (var : String) (target : EntityRef) (label : String) : Action Unit :=
  match target with
  | .relationship _ => throw (.labelOnRelationship var)
  | .node id => do
    let _ ← onGraph (Graph.removeLabel id label)

/-- Remove an entity, a node together with its relationships. -/
def remove (target : EntityRef) : Action Unit :=
  match target with
  | .node id => do
    let detached ← onGraph (Graph.deleteNode id)
    count fun s => { s with
      nodesDeleted := s.nodesDeleted + 1
      relationshipsDeleted := s.relationshipsDeleted + detached.length }
    noteDeleted (target :: detached.map .relationship)
  | .relationship id => do
    onGraph (Graph.deleteRelationship id)
    count fun s => { s with relationshipsDeleted := s.relationshipsDeleted + 1 }
    noteDeleted [target]

/-- Change an entity. -/
def change (var : String) (target : EntityRef) : UpdateAction → Action Unit
  | .setProperty key value => setProperty target key value
  | .removeProperty key => setProperty target key .null
  | .addLabel label => addLabel var target label
  | .removeLabel label => removeLabel var target label
  | .delete => remove target

/-- Apply one update to a row. An entity that this statement removed may only
be deleted again, to no effect. -/
def applyOne (row : BindingRow) (update : Update) : Action Unit := do
  match row.get? update.var with
  | none => throw (.unboundVariable update.var)
  | some target =>
    if (← get).deleted.contains target then
      if update.action = .delete then return ()
      else throw (.deletedEntity update.var target)
    else change update.var target update.action

/-- Apply updates to a row, in order. -/
def apply (row : BindingRow) (updates : List Update) : Action Unit :=
  updates.forM (applyOne row)

/-- Delete an entity; one that this statement removed stays as it is. -/
def delete (target : EntityRef) : Action Unit := do
  if (← get).deleted.contains target then return () else remove target

end Execution

end PropertyGraph
