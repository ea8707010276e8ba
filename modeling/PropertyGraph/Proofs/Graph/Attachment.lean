import PropertyGraph.Proofs.Graph.LabelCatalog
import PropertyGraph.Proofs.Graph.Storage

/-!
# Labels attached along the way

The catalog knows a label exactly if it knew it before or if one of the writes
since attached it to a node that did not carry it. Which writes those were makes
no difference: what the catalog has learnt tells which labels were attached.
-/

namespace PropertyGraph

open Std

namespace Graph

variable {g g' : Graph} {label : String}

/-- Some node carries the label in the second graph and did not in the first. -/
def Gains (g g' : Graph) (label : String) : Prop :=
  ∃ id node', g'.node? id = some node' ∧ node'.hasLabel label = true ∧
    ∀ node, g.node? id = some node → node.hasLabel label = false

/-- Storing a node that carries no new label gains nothing. -/
theorem not_gains_of_insert {id : NodeId} {node node' : Node} (stored : g.node? id = some node)
    (nodes : g'.nodes = g.nodes.insert id node')
    (fewer : node'.hasLabel label = true → node.hasLabel label = true) :
    ¬Gains g g' label := by
  rintro ⟨other, node'', stored', carries, lacks⟩
  rw [node?, nodes] at stored'
  by_cases same : other = id
  · subst same
    rw [OrderedMap.get?_insert_self] at stored'
    cases stored'
    have lacking := lacks node stored
    rw [fewer carries] at lacking
    cases lacking
  · rw [OrderedMap.get?_insert_of_ne _ _ same] at stored'
    rw [lacks node'' stored'] at carries
    cases carries

theorem not_gains_of_nodes (fewer : ∀ id node, g'.node? id = some node → g.node? id = some node) :
    ¬Gains g g' label := by
  rintro ⟨id, node, stored, carries, lacks⟩
  rw [lacks node (fewer id node stored)] at carries
  cases carries

/-- A new node gains the labels it was asked to carry. -/
theorem Stored.gains_createNode_iff (stored : g.Stored) {labels : List String}
    {properties : List (String × Value)} :
    Gains g (g.createNode labels properties).2 label ↔ label ∈ labels := by
  have new := g.node?_createNode labels properties
  constructor
  · rintro ⟨id, node, stored', carries, lacks⟩
    by_cases same : id = g.takeNodeId.1
    · subst same
      cases new.symm.trans stored'
      exact Node.hasLabel_create_iff.1 carries
    · rw [node?_createNode_of_ne same] at stored'
      rw [lacks node stored'] at carries
      cases carries
  · intro mem
    refine ⟨_, _, new, Node.hasLabel_create_iff.2 mem, fun node found => ?_⟩
    rw [stored.takeNodeId_free] at found
    cases found

/-- A label that is attached to a node that lacks it is gained. -/
theorem gains_storeLabel_iff {id : NodeId} {node node' : Node} {attached : String}
    (stored : g.node? id = some node) (attach : node.attach? attached = some node') :
    Gains g (g.storeLabel id node' attached) label ↔ label = attached := by
  obtain ⟨lacking, rfl⟩ := Node.attach?_eq_some_iff.1 attach
  constructor
  · intro gains
    refine Decidable.byContradiction fun other => ?_
    refine not_gains_of_insert stored rfl (fun carries => ?_) gains
    rw [Node.hasLabel_iff, List.mem_append, List.mem_singleton] at carries
    exact Node.hasLabel_iff.2 (carries.resolve_right other)
  · rintro rfl
    refine ⟨id, _, OrderedMap.get?_insert_self _ _ _, ?_, fun other found => ?_⟩
    · rw [Node.hasLabel_iff]
      exact List.mem_append_right _ (List.mem_singleton.2 rfl)
    · cases stored.symm.trans found
      exact lacking

/-- A write makes the catalog know the labels that it attached. -/
theorem Stored.mem_catalog_write_iff (stored : g.Stored) (step : Write g g') :
    label ∈ g'.catalog.labels ↔ label ∈ g.catalog.labels ∨ Gains g g' label := by
  have kept : g'.catalog = g.catalog → ¬Gains g g' label →
      (label ∈ g'.catalog.labels ↔ label ∈ g.catalog.labels ∨ Gains g g' label) := by
    intro same none
    rw [same, or_iff_left none]
  cases step with
  | createNode labels properties =>
    rw [stored.gains_createNode_iff, catalog_createNode, LabelCatalog.mem_foldl_register_iff]
  | storeLabel found attached =>
    rw [gains_storeLabel_iff found attached]
    exact LabelCatalog.mem_register_iff
  | strikeLabel found detached =>
    obtain ⟨_, rfl⟩ := Node.detach?_eq_some_iff.1 detached
    refine kept rfl (not_gains_of_insert found rfl fun carries => ?_)
    rw [Node.hasLabel_iff] at carries ⊢
    exact (List.mem_filter.1 carries).1
  | storeProperty key value found => exact kept rfl (not_gains_of_insert found rfl id)
  | writeRelationship key value _ => exact kept rfl (not_gains_of_nodes fun _ _ => id)
  | storeRelationship properties _ _ _ => exact kept rfl (not_gains_of_nodes fun _ _ => id)
  | strikeRelationship _ => exact kept rfl (not_gains_of_nodes fun _ _ => id)
  | @strikeNode id node found =>
    refine kept rfl (not_gains_of_nodes fun other node' stored' => ?_)
    by_cases same : other = id
    · subst same
      cases (OrderedMap.get?_erase_self g.nodes other).symm.trans stored'
    · exact (OrderedMap.get?_erase_of_ne g.nodes same).symm.trans stored'
  | declareIndex _ => exact kept rfl (not_gains_of_nodes fun _ _ => id)
  | dropIndex _ => exact kept rfl (not_gains_of_nodes fun _ _ => id)

/-! ## Walks -/

/-- Writes that lead from one graph to another, one after the other. -/
inductive Walk (g : Graph) : Graph → Type
  | here : Walk g g
  | on {h h' : Graph} : Walk g h → Write h h' → Walk g h'

/-- One of the writes attached the label to a node that did not carry it. -/
def Walk.Attaches (label : String) : {g' : Graph} → Walk g g' → Prop
  | _, .here => False
  | _, @Walk.on _ h h' walk _ => walk.Attaches label ∨ Gains h h' label

theorem Writes.walk (walked : Writes g g') : Nonempty (Walk g g') := by
  induction walked with
  | refl => exact ⟨.here⟩
  | tail _ step ih =>
    obtain ⟨walk⟩ := ih
    exact ⟨walk.on step⟩

/-- The catalog knows what it knew at first and what was attached on the way. -/
theorem Stored.mem_catalog_walk_iff (stored : g.Stored) (label : String) (walk : Walk g g') :
    label ∈ g'.catalog.labels ↔ label ∈ g.catalog.labels ∨ walk.Attaches label := by
  have along : ∀ {h : Graph}, Walk g h → h.Stored := by
    intro h walk
    induction walk with
    | here => exact stored
    | on _ step ih => exact ih.write step
  induction walk with
  | here => simp [Walk.Attaches]
  | on walk step ih =>
    exact ((along walk).mem_catalog_write_iff step).trans ((or_congr_left ih).trans or_assoc)

theorem catalog_nodup_write (nodup : g.catalog.labels.Nodup) (step : Write g g') :
    g'.catalog.labels.Nodup := by
  cases step with
  | createNode labels properties =>
    rw [catalog_createNode]
    exact LabelCatalog.foldl_register_nodup nodup labels
  | storeLabel _ _ => exact LabelCatalog.register_nodup nodup _
  | strikeLabel _ _ => exact nodup
  | storeProperty _ _ _ => exact nodup
  | writeRelationship _ _ _ => exact nodup
  | storeRelationship _ _ _ _ => exact nodup
  | strikeRelationship _ => exact nodup
  | strikeNode _ => exact nodup
  | declareIndex _ => exact nodup
  | dropIndex _ => exact nodup

/-- No label is in the catalog twice. -/
theorem Reachable.catalog_nodup (reachable : g.Reachable) : g.catalog.labels.Nodup :=
  reachable.of_writes (fun _ => List.nodup_nil) catalog_nodup_write

end Graph

end PropertyGraph
