import PropertyGraph.Pattern.OfPaths
import PropertyGraph.Statement.MergeStream

/-!
# Sessions

A session runs statements against one graph, one after the other. A statement
that changes the graph joins its paths into a pattern first, so a fault in the
definition is found before anything is written.
-/

namespace PropertyGraph

/-! ## Errors and results -/

/-- Why a statement failed. -/
inductive SessionError where
  | pattern (cause : PatternError)
  | execution (cause : ExecutionError)
  | graph (cause : GraphError)
  deriving DecidableEq

namespace SessionError

/-- The message of an error. -/
def message : SessionError → String
  | .pattern cause => "pattern error: " ++ cause.message
  | .execution cause => "mutation error: " ++ cause.message
  | .graph cause => "graph error: " ++ cause.message

/-- Whether the error concerns the definition of the statement. -/
def isDefinition : SessionError → Bool
  | .pattern cause => cause.isDefinition
  | .execution (.pattern cause) => cause.isDefinition
  | _ => false

end SessionError

/-- The rows that a statement gave and what it changed. -/
structure StatementResult where
  rows : List BindingRow
  stats : Statistics
  deriving DecidableEq

/-! ## Statements -/

/-- A statement. -/
inductive Statement where
  /-- Merge a path once. -/
  | merge (path : Path)
  /-- Merge a path from each row, applying updates to each resulting row before
  the next row is merged. -/
  | mergeWith (path : Path) (inputs : List BindingRow) (updates : List Update)
  /-- Create all paths as one pattern and apply updates to its row. -/
  | create (paths : List Path) (updates : List Update)
  /-- Match a path from each row. -/
  | matchPath (path : Path) (inputs : List BindingRow)
  /-- Match a path, then apply updates to each match. -/
  | matchUpdate (path : Path) (updates : List Update)
  /-- Declare a property index. -/
  | createIndex (name : IndexName)
  /-- Drop a property index. -/
  | dropIndex (name : IndexName)

/-- The graph that a session owns. -/
structure Session where
  graph : Graph

namespace Session

/-- A session on the graph without entities. -/
def start (config : GraphConfig) : Session := ⟨.empty config⟩

/-- A statement as the session runs it. -/
abbrev Action (α : Type) := ExceptT SessionError (StateM Session) α

/-- Join paths into a pattern, or fail before anything is written. -/
def define (paths : List Path) : Action Pattern := fun s =>
  match Pattern.ofPaths paths with
  | .ok p => (.ok p, s)
  | .error e => (.error (.pattern e), s)

/-- Run an execution on the session's graph, and keep the graph it ends in. -/
def execute (run : Execution → Except ExecutionError (List BindingRow) × Execution) :
    Action StatementResult := fun s =>
  match run (.start s.graph) with
  | (.ok rows, x) => (.ok ⟨rows, x.stats⟩, ⟨x.graph⟩)
  | (.error e, x) => (.error (.execution e), ⟨x.graph⟩)

/-- Operate on the graph; the result has no rows. -/
def declare (action : Graph.Action Unit) (stats : Statistics) : Action StatementResult :=
  fun s => match action s.graph with
    | (.ok (), graph) => (.ok ⟨[], stats⟩, ⟨graph⟩)
    | (.error e, graph) => (.error (.graph e), ⟨graph⟩)

/-- Merge a path from each row, applying updates to each resulting row before
the next row is merged. -/
def mergeWith (path : Path) (inputs : List BindingRow) (updates : List Update) :
    Action StatementResult := do
  let p ← define [path]
  execute ((MergeStream.start p inputs).drain updates)

/-- Merge a path once. -/
def merge (path : Path) : Action StatementResult := mergeWith path [.empty] []

/-- Create all paths as one pattern and apply updates to its row. -/
def create (paths : List Path) (updates : List Update) : Action StatementResult := do
  let p ← define paths
  execute (do
    let row ← Execution.create p .empty
    Execution.apply row updates
    return [row] : Execution.Action (List BindingRow))

/-- The rows of a pattern's matches from each of the given rows. -/
def matchEach (g : Graph) (p : Pattern) (inputs : List BindingRow) :
    Except PatternError (List BindingRow) :=
  (inputs.mapM (g.findAll p)).map List.flatten

/-- Match a path from each row. -/
def matchPath (path : Path) (inputs : List BindingRow) : Action StatementResult := do
  let p ← define [path]
  match matchEach (← get).graph p inputs with
  | .ok rows => return ⟨rows, .none⟩
  | .error e => throw (.pattern e)

/-- Match a path, then apply updates to each match. All matches are found
before the first update. -/
def matchUpdate (path : Path) (updates : List Update) : Action StatementResult := do
  let p ← define [path]
  match (← get).graph.findAll p .empty with
  | .error e => throw (.pattern e)
  | .ok rows => execute (do
    rows.forM fun row => Execution.apply row updates
    return rows : Execution.Action (List BindingRow))

/-- Declare a property index. -/
def createIndex (name : IndexName) : Action StatementResult :=
  declare (Graph.createIndex name) { indicesCreated := 1 }

/-- Drop a property index. -/
def dropIndex (name : IndexName) : Action StatementResult :=
  declare (Graph.dropIndex name) { indicesDeleted := 1 }

/-- The plan that matching a path would run. -/
def explainMatch (s : Session) (path : Path) : Except SessionError MatchPlan :=
  ((Pattern.ofPath path).bind fun p => s.graph.planMatch p .empty).mapError .pattern

/-- Run a statement. -/
def run : Statement → Action StatementResult
  | .merge path => merge path
  | .mergeWith path inputs updates => mergeWith path inputs updates
  | .create paths updates => create paths updates
  | .matchPath path inputs => matchPath path inputs
  | .matchUpdate path updates => matchUpdate path updates
  | .createIndex name => createIndex name
  | .dropIndex name => dropIndex name

end Session

end PropertyGraph
