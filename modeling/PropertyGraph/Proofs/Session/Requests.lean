import PropertyGraph.Proofs.Statement.MergeStream
import PropertyGraph.Proofs.Statement.Reachable
import PropertyGraph.Session

/-!
# Requests to a session

What is asked of a session, as a value: to operate on its graph, to run a
statement or to find nodes. Whatever a session was asked, and whether or not it
could do it, its graph is a reachable one.
-/

namespace PropertyGraph

namespace Session

/-- What a session can be asked. -/
inductive Request where
  /-- Operate on the graph. -/
  | operate (operation : Operation)
  /-- Run a statement. -/
  | run (statement : Statement)
  /-- Find the nodes that carry an optional label and satisfy predicates. -/
  | findNodes (label : Option String) (predicates : List PropertyPredicate)

/-- The session after a request, granted or not. -/
def after (s : Session) : Request → Session
  | .operate operation => ⟨s.graph.after operation⟩
  | .run statement => (run statement s).2
  | .findNodes _ _ => s

/-- The session that a list of requests leads to. -/
def afterAll (s : Session) (requests : List Request) : Session := requests.foldl after s

/-- A session that some requests lead to from the start. -/
inductive Reachable : Session → Prop
  | start (config : GraphConfig) : Reachable (.start config)
  | after {s : Session} (request : Request) : Reachable s → Reachable (s.after request)

/-! ## Parts of statements -/

/-- Create a pattern and apply updates to its row. -/
def creating (p : Pattern) (updates : List Update) : Execution.Action (List BindingRow) := do
  let row ← Execution.create p .empty
  Execution.apply row updates
  return [row]

section Parts

variable {path : Path} {paths : List Path} {p : Pattern} {inputs : List BindingRow}
  {updates : List Update} {s : Session} {x : Execution}

theorem define_of_ok (compiled : Pattern.ofPaths paths = .ok p) :
    define paths s = (.ok p, s) := by
  rw [define, compiled]

theorem define_of_error {e : PatternError} (refused : Pattern.ofPaths paths = .error e) :
    define paths s = (.error (.pattern e), s) := by
  rw [define, refused]

theorem graph_declare (action : Graph.Action Unit) (stats : Statistics) (s : Session) :
    (declare action stats s).2.graph = (action s.graph).2 := by
  rw [declare]
  split <;> simp [*]

theorem graph_execute (action : Execution.Action (List BindingRow)) (s : Session) :
    (execute action s).2.graph = (action (.start s.graph)).2.graph := by
  rw [execute]
  split <;> simp [*]

/-- Merging a path from rows merges its pattern from one row after the other. -/
theorem mergeWith_of_ok (compiled : Pattern.ofPaths [path] = .ok p) :
    mergeWith path inputs updates s = execute
      (do return (← MergeStream.mergeEach p updates inputs).flatten :
        Execution.Action (List BindingRow)) s := by
  rw [mergeWith, RefusableAction.bind_of_ok (define_of_ok compiled),
    ← MergeStream.draining_eq]

theorem mergeWith_of_error {e : PatternError} (refused : Pattern.ofPaths [path] = .error e) :
    mergeWith path inputs updates s = (.error (.pattern e), s) := by
  rw [mergeWith, RefusableAction.bind_of_error (define_of_error refused)]

/-- Rows that were merged one after the other, in blocks, are the rows of the statement. -/
theorem mergeWith_of_blocks (compiled : Pattern.ofPaths [path] = .ok p)
    {blocks : List (List BindingRow)}
    (ran : MergeStream.mergeEach p updates inputs (.start s.graph) = (.ok blocks, x)) :
    mergeWith path inputs updates s = (.ok ⟨blocks.flatten, x.stats⟩, ⟨x.graph⟩) := by
  rw [mergeWith_of_ok compiled, execute, RefusableAction.bind_of_ok ran]
  rfl

theorem mergeWith_of_failure (compiled : Pattern.ofPaths [path] = .ok p) {e : ExecutionError}
    (ran : MergeStream.mergeEach p updates inputs (.start s.graph) = (.error e, x)) :
    mergeWith path inputs updates s = (.error (.execution e), ⟨x.graph⟩) := by
  rw [mergeWith_of_ok compiled, execute, RefusableAction.bind_of_error ran]

/-- A merge statement that succeeds has merged its rows one after the other. -/
theorem blocks_of_mergeWith {s' : Session} {result : StatementResult}
    (merged : mergeWith path inputs updates s = (.ok result, s')) :
    ∃ p blocks x, Pattern.ofPaths [path] = .ok p ∧
      MergeStream.mergeEach p updates inputs (.start s.graph) = (.ok blocks, x) ∧
      result = ⟨blocks.flatten, x.stats⟩ ∧ s' = ⟨x.graph⟩ := by
  cases compiled : Pattern.ofPaths [path] with
  | error e =>
    rw [mergeWith_of_error compiled] at merged
    cases merged
  | ok p =>
    rcases ran : MergeStream.mergeEach p updates inputs (.start s.graph) with ⟨e | blocks, x⟩
    · rw [mergeWith_of_failure compiled ran] at merged
      cases merged
    · rw [mergeWith_of_blocks compiled ran] at merged
      cases merged
      exact ⟨p, blocks, x, rfl, ran, rfl, rfl⟩

theorem create_of_error {e : PatternError} (refused : Pattern.ofPaths paths = .error e) :
    create paths updates s = (.error (.pattern e), s) := by
  rw [create, RefusableAction.bind_of_error (define_of_error refused)]

theorem create_of_ok (compiled : Pattern.ofPaths paths = .ok p) :
    create paths updates s = execute (creating p updates) s := by
  rw [create, RefusableAction.bind_of_ok (define_of_ok compiled)]
  rfl

theorem matchPath_of_error {e : PatternError} (refused : Pattern.ofPaths [path] = .error e) :
    matchPath path inputs s = (.error (.pattern e), s) := by
  rw [matchPath, RefusableAction.bind_of_error (define_of_error refused)]

/-- Matching a path leaves the session as it is. -/
theorem matchPath_of_ok (compiled : Pattern.ofPaths [path] = .ok p) :
    matchPath path inputs s = (((inputs.mapM (s.graph.findAll p)).mapError .pattern).map
      fun blocks => ⟨blocks.flatten, .none⟩, s) := by
  rw [matchPath, RefusableAction.bind_of_ok (define_of_ok compiled),
    RefusableAction.bind_get, matchEach]
  cases inputs.mapM (s.graph.findAll p) <;> rfl

theorem matchUpdate_of_error {e : PatternError} (refused : Pattern.ofPaths [path] = .error e) :
    matchUpdate path updates s = (.error (.pattern e), s) := by
  rw [matchUpdate, RefusableAction.bind_of_error (define_of_error refused)]

theorem matchUpdate_of_unmatched (compiled : Pattern.ofPaths [path] = .ok p) {e : PatternError}
    (refused : s.graph.findAll p .empty = .error e) :
    matchUpdate path updates s = (.error (.pattern e), s) := by
  rw [matchUpdate, RefusableAction.bind_of_ok (define_of_ok compiled), RefusableAction.bind_get,
    refused]
  rfl

/-- Once all matches are found, updating them is all that is left. -/
theorem matchUpdate_of_ok (compiled : Pattern.ofPaths [path] = .ok p) {rows : List BindingRow}
    (found : s.graph.findAll p .empty = .ok rows) :
    matchUpdate path updates s = execute (do
      rows.forM fun row => Execution.apply row updates
      return rows : Execution.Action (List BindingRow)) s := by
  rw [matchUpdate, RefusableAction.bind_of_ok (define_of_ok compiled), RefusableAction.bind_get,
    found]

end Parts

/-! ## Reachable sessions -/

/-- An execution that operates on the graph leads from a reachable graph to one. -/
theorem graph_reachable_of_execute {s : Session} (reachable : s.graph.Reachable)
    {action : Execution.Action (List BindingRow)} (operating : Execution.Operating action) :
    (execute action s).2.graph.Reachable := by
  rw [graph_execute]
  exact Execution.graph_reachable_of_operates reachable (operating (.start s.graph))

theorem operating_mergeRow (p : Pattern) (updates : List Update) (row : BindingRow) :
    Execution.Operating (MergeStream.mergeRow p updates row) :=
  .bind (Execution.operating_merge p row) fun rows =>
    .bind (.forM (fun row => Execution.operating_apply row updates) rows) fun _ =>
      .stay fun _ => rfl

theorem operating_draining (p : Pattern) (inputs : List BindingRow) (updates : List Update) :
    Execution.Operating (MergeStream.draining updates (.start p inputs)) := by
  rw [MergeStream.draining_eq]
  exact .bind (.mapM (operating_mergeRow p updates) inputs) fun _ => .stay fun _ => rfl

theorem operating_creating (p : Pattern) (updates : List Update) :
    Execution.Operating (creating p updates) :=
  .bind (Execution.operating_create p .empty) fun row =>
    .bind (Execution.operating_apply row updates) fun _ => .stay fun _ => rfl

/-- A statement that joins paths has only to be looked at from where they joined. -/
theorem graph_reachable_of_define {s : Session} (reachable : s.graph.Reachable)
    {paths : List Path} {f : Pattern → Action StatementResult}
    (joined : ∀ p, (f p s).2.graph.Reachable) :
    ((define paths >>= f) s).2.graph.Reachable := by
  cases compiled : Pattern.ofPaths paths with
  | error e =>
    rw [RefusableAction.bind_of_error (define_of_error compiled)]
    exact reachable
  | ok p =>
    rw [RefusableAction.bind_of_ok (define_of_ok compiled)]
    exact joined p

/-- A statement leads from a reachable graph to a reachable one, failing or not. -/
theorem graph_reachable_of_run {s : Session} (reachable : s.graph.Reachable)
    (statement : Statement) : (run statement s).2.graph.Reachable := by
  have merges : ∀ path inputs updates,
      (mergeWith path inputs updates s).2.graph.Reachable := fun _ inputs updates =>
    graph_reachable_of_define reachable fun p =>
      graph_reachable_of_execute reachable (operating_draining p inputs updates)
  cases statement with
  | merge path => exact merges path [.empty] []
  | mergeWith path inputs updates => exact merges path inputs updates
  | create paths updates =>
    refine graph_reachable_of_define reachable fun p => ?_
    exact graph_reachable_of_execute reachable (operating_creating p updates)
  | matchPath path inputs =>
    refine graph_reachable_of_define reachable fun p => ?_
    rw [RefusableAction.bind_get]
    cases matchEach s.graph p inputs <;> exact reachable
  | matchUpdate path updates =>
    refine graph_reachable_of_define reachable fun p => ?_
    rw [RefusableAction.bind_get]
    cases s.graph.findAll p .empty with
    | error e => exact reachable
    | ok rows =>
      refine graph_reachable_of_execute reachable (.bind (.forM ?_ rows) fun _ => ?_)
      · exact fun row => Execution.operating_apply row updates
      · exact .stay fun _ => rfl
  | createIndex name =>
    rw [run, createIndex, graph_declare]
    exact reachable.after (.createIndex name)
  | dropIndex name =>
    rw [run, dropIndex, graph_declare]
    exact reachable.after (.dropIndex name)

/-- Whatever a session was asked, its graph is a reachable one. -/
theorem Reachable.graph {s : Session} (reachable : s.Reachable) : s.graph.Reachable := by
  induction reachable with
  | start config => exact .empty config
  | @after s request _ ih =>
    cases request with
    | operate operation => exact ih.after operation
    | run statement => exact graph_reachable_of_run ih statement
    | findNodes label predicates => exact ih

end Session

end PropertyGraph
