import PropertyGraph.Proofs.Graph.Twins
import PropertyGraph.Proofs.Match.Exactness
import PropertyGraph.Proofs.Statement.MergeStream
import PropertyGraph.Proofs.Statement.Reachable

/-!
# Executions in parallel

Two executions on graphs that differ in their indexes only are carried through
side by side. A pattern has the same matches in both, possibly in another order,
or cannot be matched in either for one reason; so both merges match or both
create. Whatever else a statement does asks the graph nothing but what does not
depend on its indexes, so it answers the same and leaves the executions side by
side.
-/

namespace PropertyGraph

open RefusableAction

/-! ## Matching in twins -/

namespace Graph

variable {g g' : Graph} {p : Pattern} {row : BindingRow}

theorem boundNodes_bare (row : BindingRow) (slots : List (NodeSlot × Nat)) :
    g.bare.boundNodes row slots = g.boundNodes row slots := by
  induction slots with
  | nil => rfl
  | cons n rest ih =>
    rw [boundNodes, boundNodes, ih]
    rfl

theorem boundRels_bare (row : BindingRow) (slots : List (RelSlot × Nat)) :
    g.bare.boundRels row slots = g.boundRels row slots := by
  induction slots with
  | nil => rfl
  | cons r rest ih =>
    rw [boundRels, boundRels, ih]
    rfl

namespace Twins

theorem grows (twins : g.Twins g') : g.Grows g' where
  nodes id node found := by rwa [← twins.node?]
  rels id rel found := by rwa [← twins.relationship?]

theorem holds_iff (twins : g.Twins g') {m : Match} : m.Holds g p row ↔ m.Holds g' p row :=
  ⟨twins.grows.holds, twins.symm.grows.holds⟩

/-- A plan is found in both twins or in neither, for one reason. -/
theorem planMatch (twins : g.Twins g') (p : Pattern) (row : BindingRow) :
    AlikeOutcome (fun _ _ => True) (g.planMatch p row) (g'.planMatch p row) := by
  have nodes : g.boundNodes row p.nodes.zipIdx = g'.boundNodes row p.nodes.zipIdx := by
    rw [← boundNodes_bare, twins.alike, boundNodes_bare]
  have rels : g.boundRels row p.rels.zipIdx = g'.boundRels row p.rels.zipIdx := by
    rw [← boundRels_bare, twins.alike, boundRels_bare]
  rw [planMatch_eq, planMatch_eq]
  refine (AlikeOutcome.of_eq nodes).bind fun _ _ _ => ?_
  exact (AlikeOutcome.of_eq rels).bind fun _ _ _ => .ok trivial

/-- In twins a pattern has the same matches, if in another order, or it cannot be
matched in either for one reason. -/
theorem findAll (twins : g.Twins g') (wellFormed : p.WellFormed) (row : BindingRow) :
    AlikeOutcome List.Perm (g.findAll p row) (g'.findAll p row) := by
  rcases (twins.planMatch p row).cases with
    ⟨e, refused, refused'⟩ | ⟨plan, plan', planned, planned', _⟩
  · rw [Graph.findAll, Graph.findAll, refused, refused']
    exact .error e
  · obtain ⟨found, once, holds, answered⟩ := twins.left.coherent.findAll_of_usable wellFormed
      (usable_of_planMatch planned)
    obtain ⟨found', once', holds', answered'⟩ := twins.right.coherent.findAll_of_usable wellFormed
      (usable_of_planMatch planned')
    have same : found.Perm found' := (List.perm_ext_iff_of_nodup once once').2 fun m => by
      rw [holds, holds', twins.holds_iff]
    rw [answered, answered']
    exact .ok (same.map _)

end Twins

end Graph

/-! ## Side by side -/

namespace Execution

variable {α : Type} {g g' : Graph} {x x' : Execution} {p : Pattern}

/-- The check before a creation asks the graph for nodes only. -/
theorem checkCreation_of_twins (twins : g.Twins g') (p : Pattern) (row : BindingRow) :
    checkCreation g p row = checkCreation g' p row := by
  have unseen : ∀ g : Graph, checkCreation g.bare p row = checkCreation g p row := fun _ => rfl
  rw [← unseen g, twins.alike, unseen g']

/-- Executions on twins that have counted and removed the same. -/
structure Beside (x x' : Execution) : Prop where
  graph : x.graph.Twins x'.graph
  stats : x.stats = x'.stats
  newLabels : x.newLabels = x'.newLabels
  deleted : x.deleted = x'.deleted

theorem Beside.start (twins : g.Twins g') : (start g).Beside (start g') :=
  ⟨twins, rfl, rfl, rfl⟩

theorem Beside.countLabel (beside : x.Beside x') (known : Bool) (label : String) :
    (x.countLabel known label).Beside (x'.countLabel known label) := by
  unfold Execution.countLabel
  rw [beside.newLabels]
  split
  · exact beside
  · exact ⟨beside.graph, by rw [beside.stats], rfl, beside.deleted⟩

theorem parallel_onGraph {action : Graph.Action α}
    (alike : Parallel Graph.Twins Eq action action) :
    Parallel Beside Eq (onGraph action) (onGraph action) := by
  intro x x' beside
  obtain ⟨same, twins⟩ := alike _ _ beside.graph
  rcases ran : action x.graph with ⟨outcome, g⟩
  rcases ran' : action x'.graph with ⟨outcome', g'⟩
  rw [ran, ran'] at same twins
  cases same with
  | error e =>
    rw [onGraph_of_error ran, onGraph_of_error ran']
    exact ⟨.error _, { beside with graph := twins }⟩
  | ok related =>
    rw [onGraph_of_ok ran, onGraph_of_ok ran']
    exact ⟨.ok related, { beside with graph := twins }⟩

theorem parallel_count (change : Statistics → Statistics) :
    Parallel Beside Eq (count change) (count change) :=
  .modify fun _ _ beside => { beside with stats := congrArg change beside.stats }

theorem parallel_noteDeleted (entities : List EntityRef) :
    Parallel Beside Eq (noteDeleted entities) (noteDeleted entities) :=
  .modify fun _ _ beside => { beside with deleted := congrArg (entities ++ ·) beside.deleted }

theorem Beside.noteCreated (beside : x.Beside x') (entity : EntityRef) :
    (noteCreated entity x).Beside (noteCreated entity x') :=
  { beside with deleted := congrArg (List.filter _) beside.deleted }

/-! ## Creating in parallel -/

/-- Count labels, those apart that the graph knows. -/
theorem Beside.countLabels (beside : x.Beside x') (labels : List String) :
    (labels.foldl (fun x label => x.countLabel (x.graph.catalog.contains label) label) x).Beside
      (labels.foldl (fun x label => x.countLabel (x.graph.catalog.contains label) label) x') := by
  induction labels generalizing x x' with
  | nil => exact beside
  | cons label rest ih =>
    rw [List.foldl_cons, List.foldl_cons, beside.graph.catalog]
    exact ih (beside.countLabel _ label)

theorem Beside.createSlotNode (beside : x.Beside x') (slot : NodeSlot) :
    (createSlotNode slot x).1 = (createSlotNode slot x').1 ∧
      (createSlotNode slot x).2.Beside (createSlotNode slot x').2 := by
  have counted := beside.countLabels slot.labels
  have same : (Execution.createSlotNode slot x).1 = (Execution.createSlotNode slot x').1 := by
    rw [(createSlotNode_spec slot x).1, (createSlotNode_spec slot x').1]
    exact congrArg (fun g => g.takeNodeId.1) beside.graph.alike
  refine ⟨same, ?_, ?_, counted.newLabels, ?_⟩
  · rw [(createSlotNode_spec slot x).2, (createSlotNode_spec slot x').2]
    exact beside.graph.after (.createNode slot.labels slot.literals) rfl
  · exact congrArg (fun stats => { stats with
      nodesCreated := stats.nodesCreated + 1
      propertiesSet := stats.propertiesSet + slot.properties.size }) counted.stats
  · exact congrArg₂ (fun id deleted => deleted.filter fun removed => removed != .node id)
      same counted.deleted

theorem Beside.fillNodes (beside : x.Beside x') (pairs : List (NodeSlot × Option NodeId)) :
    (fillNodes pairs x).1 = (fillNodes pairs x').1 ∧
      (fillNodes pairs x).2.Beside (fillNodes pairs x').2 := by
  induction pairs generalizing x x' with
  | nil => exact ⟨rfl, beside⟩
  | cons pair rest ih =>
    obtain ⟨slot, bound⟩ := pair
    cases bound with
    | some id =>
      obtain ⟨same, beside⟩ := ih beside
      exact ⟨congrArg (id :: ·) same, beside⟩
    | none =>
      obtain ⟨first, beside⟩ := beside.createSlotNode slot
      obtain ⟨same, beside⟩ := ih beside
      exact ⟨congrArg₂ List.cons first same, beside⟩

theorem parallel_createSlotRel (nodes : List NodeId) (slot : RelSlot) :
    Parallel Beside Eq (createSlotRel nodes slot) (createSlotRel nodes slot) := by
  refine .bind (parallel_onGraph (Graph.parallel_of_overlooks (.createRelationship _ _ _ _)
    (Graph.overlooks_createRelationship _ _ _ _) rfl fun _ => rfl)) ?_
  rintro id _ rfl
  refine .bind (parallel_count _) fun _ _ _ => ?_
  exact .bind (.modify fun _ _ beside => beside.noteCreated _) fun _ _ _ => .pure rfl

theorem parallel_create (p : Pattern) (row : BindingRow) :
    Parallel Beside Eq (create p row) (create p row) := by
  refine .bind .get fun x x' beside => ?_
  rw [checkCreation_of_twins beside.graph p row]
  refine .bind (.ofExcept _) ?_
  rintro bound _ rfl
  refine .bind (.modifyGet fun _ _ beside => beside.fillNodes (p.nodes.zip bound)) ?_
  rintro nodes _ rfl
  refine .bind (.mapM (parallel_createSlotRel nodes) p.rels) fun rels rels' same => ?_
  rw [List.forall₂_eq_eq_eq] at same
  exact .pure (congrArg _ (congrArg _ (congrArg _ same)))

/-- Merges in parallel both match or both create. -/
theorem parallel_merge (wellFormed : p.WellFormed) (row : BindingRow) :
    Parallel Beside List.Perm (merge p row) (merge p row) := by
  refine .bind .get fun x x' beside => ?_
  rcases (beside.graph.findAll wellFormed row).cases with
    ⟨e, refused, refused'⟩ | ⟨rows, rows', found, found', same⟩
  · rw [refused, refused']
    exact .throw _
  · rw [found, found']
    cases rows with
    | nil =>
      rw [List.nil_perm] at same
      rw [same]
      refine .bind (parallel_create p row) ?_
      rintro created _ rfl
      exact .pure (.refl _)
    | cons first rest =>
      cases rows' with
      | nil => cases List.perm_nil.1 same
      | cons first' rest' => exact .pure same

/-- Without updates, rows merged in parallel give the same blocks of rows, each in
some order. -/
theorem parallel_mergeEach (wellFormed : p.WellFormed) (inputs : List BindingRow) :
    Parallel Beside (List.Forall₂ List.Perm) (MergeStream.mergeEach p [] inputs)
      (MergeStream.mergeEach p [] inputs) := by
  rw [MergeStream.mergeEach_nil]
  exact .mapM (parallel_merge wellFormed) inputs

/-! ## Updating in parallel -/

theorem parallel_setProperty (target : EntityRef) (key : String) (value : Value) :
    Parallel Beside Eq (setProperty target key value) (setProperty target key value) :=
  .bind (parallel_onGraph (Graph.parallel_of_overlooks (.setProperty target key value)
    (Graph.overlooks_setProperty target key value) rfl fun _ => rfl)) fun _ _ _ =>
      parallel_count _

theorem parallel_addLabel (var : String) (target : EntityRef) (label : String) :
    Parallel Beside Eq (addLabel var target label) (addLabel var target label) := by
  cases target with
  | relationship _ => exact .throw _
  | node id =>
    refine .bind .get fun x x' beside => ?_
    rw [beside.graph.catalog]
    refine .bind (parallel_onGraph (Graph.parallel_of_overlooks (.addLabel id label)
      (Graph.overlooks_addLabel id label) rfl fun _ => rfl)) ?_
    rintro attached _ rfl
    split
    · exact .modify fun _ _ beside => beside.countLabel _ label
    · exact .pure rfl

theorem parallel_removeLabel (var : String) (target : EntityRef) (label : String) :
    Parallel Beside Eq (removeLabel var target label) (removeLabel var target label) := by
  cases target with
  | relationship _ => exact .throw _
  | node id =>
    exact .bind (parallel_onGraph (Graph.parallel_of_overlooks (.removeLabel id label)
      (Graph.overlooks_removeLabel id label) rfl fun _ => rfl)) fun _ _ _ => .pure rfl

theorem parallel_remove (target : EntityRef) :
    Parallel Beside Eq (remove target) (remove target) := by
  cases target with
  | node id =>
    refine .bind (parallel_onGraph (Graph.parallel_of_overlooks (.deleteNode id)
      (Graph.overlooks_deleteNode id) rfl fun _ => rfl)) ?_
    rintro detached _ rfl
    exact .bind (parallel_count _) fun _ _ _ => parallel_noteDeleted _
  | relationship id =>
    refine .bind (parallel_onGraph (Graph.parallel_of_overlooks (.deleteRelationship id)
      (Graph.overlooks_deleteRelationship id) rfl fun _ => rfl)) fun _ _ _ => ?_
    exact .bind (parallel_count _) fun _ _ _ => parallel_noteDeleted _

theorem parallel_change (var : String) (target : EntityRef) (action : UpdateAction) :
    Parallel Beside Eq (change var target action) (change var target action) := by
  cases action with
  | setProperty key value => exact parallel_setProperty target key value
  | removeProperty key => exact parallel_setProperty target key .null
  | addLabel label => exact parallel_addLabel var target label
  | removeLabel label => exact parallel_removeLabel var target label
  | delete => exact parallel_remove target

theorem parallel_applyOne (row : BindingRow) (update : Update) :
    Parallel Beside Eq (applyOne row update) (applyOne row update) := by
  unfold applyOne
  split
  · exact .throw _
  · rename_i target _
    refine .bind .get fun x x' beside => ?_
    rw [beside.deleted]
    split
    · split
      · exact .pure rfl
      · exact .throw _
    · exact parallel_change update.var target update.action

theorem parallel_apply (row : BindingRow) (updates : List Update) :
    Parallel Beside Eq (apply row updates) (apply row updates) :=
  .forM (parallel_applyOne row) updates

end Execution

end PropertyGraph
