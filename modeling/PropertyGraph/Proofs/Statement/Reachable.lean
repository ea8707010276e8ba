import PropertyGraph.Proofs.Graph.Writes
import PropertyGraph.Proofs.Statement.Calls

/-!
# Executions on reachable graphs

The steps of a statement touch the graph by operating on it and in no other way.
So a statement that starts on a reachable graph is on a reachable graph at every
point, whatever failed on the way.
-/

namespace PropertyGraph

namespace Execution

variable {α : Type} {x x' : Execution}

/-- An execution that steps of a statement lead to from the start on a reachable
graph. -/
inductive Reachable : Execution → Prop
  | start {g : Graph} : g.Reachable → Reachable (.start g)
  | merge {x : Execution} (p : Pattern) (row : BindingRow) :
    Reachable x → Reachable (merge p row x).2
  | create {x : Execution} (p : Pattern) (row : BindingRow) :
    Reachable x → Reachable (create p row x).2
  | apply {x : Execution} (row : BindingRow) (updates : List Update) :
    Reachable x → Reachable (apply row updates x).2
  | delete {x : Execution} (target : EntityRef) :
    Reachable x → Reachable (delete target x).2

/-- At most one operation on the graph, and any change to the rest. -/
def Operates (x x' : Execution) : Prop :=
  x'.graph = x.graph ∨ ∃ operation, x'.graph = x.graph.after operation

/-- The action touches the graph by operating on it only. -/
abbrev Operating (action : Action α) : Prop := RefusableAction.Along Operates action

/-! ## What the steps are made of -/

theorem operating_modify (f : Execution → Execution) (same : ∀ x, (f x).graph = x.graph) :
    Operating (modify f : Action PUnit) :=
  fun x => .single (.inl (same x))

theorem operating_count (f : Statistics → Statistics) : Operating (count f) :=
  operating_modify _ fun _ => rfl

theorem operating_onGraph {action : Graph.Action α} (operation : Operation)
    (same : ∀ g, (action g).2 = g.after operation) : Operating (onGraph action) := by
  intro x
  refine .single (.inr ⟨operation, ?_⟩)
  rw [onGraph, ← same]
  split
  · rename_i ran
    rw [ran]
  · rename_i ran
    rw [ran]

/-- Counting a label changes the labels counted and their number. -/
theorem countLabel_frame (known : Bool) (label : String) (x : Execution) :
    ∃ newLabels n, x.countLabel known label =
      { x with newLabels, stats := { x.stats with labelsAdded := n } } := by
  unfold countLabel
  split
  · exact ⟨x.newLabels, x.stats.labelsAdded, rfl⟩
  · exact ⟨_, _, rfl⟩

theorem countLabels_frame (labels : List String) (x : Execution) :
    ∃ newLabels n,
      labels.foldl (fun x label => x.countLabel (x.graph.catalog.contains label) label) x =
        { x with newLabels, stats := { x.stats with labelsAdded := n } } := by
  induction labels generalizing x with
  | nil => exact ⟨x.newLabels, x.stats.labelsAdded, rfl⟩
  | cons label rest ih =>
    obtain ⟨_, _, first⟩ := countLabel_frame (x.graph.catalog.contains label) label x
    obtain ⟨newLabels, n, later⟩ := ih (x.countLabel (x.graph.catalog.contains label) label)
    refine ⟨newLabels, n, ?_⟩
    rw [List.foldl_cons, later, first]

theorem graph_countLabel (known : Bool) (label : String) (x : Execution) :
    (x.countLabel known label).graph = x.graph := by
  obtain ⟨_, _, same⟩ := countLabel_frame known label x
  rw [same]

/-- Creating a node for a slot does to the graph what creating a node does. -/
theorem createSlotNode_spec (slot : NodeSlot) (x : Execution) :
    (createSlotNode slot x).1 = x.graph.takeNodeId.1 ∧
      (createSlotNode slot x).2.graph = (x.graph.createNode slot.labels slot.literals).2 := by
  obtain ⟨_, _, same⟩ := countLabels_frame slot.labels x
  exact ⟨congrArg (fun x => x.graph.takeNodeId.1) same,
    congrArg (fun x => (x.graph.createNode slot.labels slot.literals).2) same⟩

theorem operates_createSlotNode (slot : NodeSlot) (x : Execution) :
    Relation.ReflTransGen Operates x (createSlotNode slot x).2 :=
  .single (.inr ⟨.createNode slot.labels slot.literals, (createSlotNode_spec slot x).2⟩)

theorem operating_createSlotRel (nodes : List NodeId) (slot : RelSlot) :
    Operating (createSlotRel nodes slot) := by
  refine .bind (operating_onGraph (.createRelationship _ _ _ _) fun _ => rfl) fun id => ?_
  refine .bind (operating_count _) fun _ => ?_
  exact .bind (operating_modify _ fun _ => rfl) fun _ => .stay fun _ => rfl

theorem operating_remove (target : EntityRef) : Operating (remove target) := by
  cases target with
  | node id =>
    refine .bind (operating_onGraph (.deleteNode id) fun _ => rfl) fun detached => ?_
    exact .bind (operating_count _) fun _ => operating_modify _ fun _ => rfl
  | relationship id =>
    refine .bind (operating_onGraph (.deleteRelationship id) fun _ => rfl) fun _ => ?_
    exact .bind (operating_count _) fun _ => operating_modify _ fun _ => rfl

theorem operating_setProperty (target : EntityRef) (key : String) (value : Value) :
    Operating (setProperty target key value) :=
  .bind (operating_onGraph (.setProperty target key value) fun _ => rfl) fun _ =>
    operating_count _

theorem operating_addLabel (var : String) (target : EntityRef) (label : String) :
    Operating (addLabel var target label) := by
  cases target with
  | relationship _ => exact along_throw _
  | node id =>
    refine .bind along_get fun x => ?_
    refine .bind (operating_onGraph (.addLabel id label) fun _ => rfl) fun attached => ?_
    split
    · exact operating_modify _ fun x => graph_countLabel _ _ x
    · exact .stay fun _ => rfl

theorem operating_removeLabel (var : String) (target : EntityRef) (label : String) :
    Operating (removeLabel var target label) := by
  cases target with
  | relationship _ => exact along_throw _
  | node id =>
    exact .bind (operating_onGraph (.removeLabel id label) fun _ => rfl) fun _ =>
      .stay fun _ => rfl

/-! ## The steps -/

/-- All that calls come down to touches the graph by operating on it only. -/
theorem operates_goesAlong : GoesAlong Operates where
  createSlotNode := operates_createSlotNode
  createSlotRel := operating_createSlotRel
  setProperty := operating_setProperty
  addLabel := operating_addLabel
  removeLabel := operating_removeLabel
  remove := operating_remove

theorem operating_create (p : Pattern) (row : BindingRow) : Operating (create p row) :=
  operates_goesAlong.creates.create p row

theorem operating_merge (p : Pattern) (row : BindingRow) : Operating (merge p row) :=
  operates_goesAlong.creates.merge p row

theorem operating_apply (row : BindingRow) (updates : List Update) :
    Operating (apply row updates) := operates_goesAlong.updates.apply row updates

theorem operating_delete (target : EntityRef) : Operating (delete target) :=
  operates_goesAlong.updates.delete target

/-- Operating on the graph makes writes. -/
theorem writes_of_operates (walked : Relation.ReflTransGen Operates x x') :
    Graph.Writes x.graph x'.graph := by
  induction walked with
  | refl => exact .refl
  | tail _ step ih =>
    rcases step with same | ⟨operation, same⟩
    · rw [same]
      exact ih
    · rw [same]
      exact ih.trans (Graph.writes_after _ operation)

/-! ## Reachable executions -/

/-- Operations lead from reachable graphs to reachable graphs. -/
theorem graph_reachable_of_operates (reachable : x.graph.Reachable)
    (walked : Relation.ReflTransGen Operates x x') : x'.graph.Reachable := by
  induction walked with
  | refl => exact reachable
  | tail _ step ih =>
    rcases step with same | ⟨operation, same⟩
    · rw [same]
      exact ih
    · rw [same]
      exact ih.after operation

theorem graph_reachable_afterCalls (reachable : x.graph.Reachable) (calls : List Call) :
    (x.afterCalls calls).graph.Reachable :=
  graph_reachable_of_operates reachable (operates_goesAlong.afterCalls x calls)

/-- Whatever steps a statement has taken, its graph is a reachable one. -/
theorem Reachable.graph (reachable : x.Reachable) : x.graph.Reachable := by
  induction reachable with
  | start reachable => exact reachable
  | merge p row _ ih => exact graph_reachable_of_operates ih (operating_merge p row _)
  | create p row _ ih => exact graph_reachable_of_operates ih (operating_create p row _)
  | apply row updates _ ih => exact graph_reachable_of_operates ih (operating_apply row updates _)
  | delete target _ ih => exact graph_reachable_of_operates ih (operating_delete target _)

end Execution

end PropertyGraph
