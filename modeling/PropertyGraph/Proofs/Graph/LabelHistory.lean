import PropertyGraph.Proofs.Graph.Attachment
import PropertyGraph.Proofs.Graph.Coherence
import PropertyGraph.Proofs.Graph.Deletion

/-!
# Labels over a history

Labels are kept in three places: with the node, in the label index and in the
catalog. The first two speak of the present and agree. The catalog speaks of the
history: it knows a label once an operation has attached it to some node, to one
that was created with it or to a live one that lacked it, and it goes on from what
it knew, whatever labels are detached and nodes deleted.
-/

namespace PropertyGraph

open Std

/-! ## Catalogs that grow -/

namespace LabelCatalog

theorem prefix_register (c : LabelCatalog) (label : String) :
    c.labels <+: (c.register label).labels := by
  by_cases known : label ∈ c.labels
  · simp [register_of_mem known]
  · simp [register_of_not_mem known]

theorem prefix_foldl_register (c : LabelCatalog) (labels : List String) :
    c.labels <+: (labels.foldl register c).labels := by
  rw [labels_foldl_register]
  exact List.prefix_append _ _

end LabelCatalog

namespace Graph

variable {g g' : Graph} {label : String}

theorem catalog_prefix_write (step : Write g g') : g.catalog.labels <+: g'.catalog.labels := by
  cases step with
  | createNode labels properties =>
    rw [catalog_createNode]
    exact g.catalog.prefix_foldl_register labels
  | @storeLabel _ _ _ label _ _ => exact g.catalog.prefix_register label
  | strikeLabel _ _ => exact List.prefix_rfl
  | storeProperty _ _ _ => exact List.prefix_rfl
  | writeRelationship _ _ _ => exact List.prefix_rfl
  | storeRelationship _ _ _ _ => exact List.prefix_rfl
  | strikeRelationship _ => exact List.prefix_rfl
  | strikeNode _ => exact List.prefix_rfl
  | declareIndex _ => exact List.prefix_rfl
  | dropIndex _ => exact List.prefix_rfl

theorem catalog_prefix_writes (walked : Writes g g') :
    g.catalog.labels <+: g'.catalog.labels := by
  induction walked with
  | refl => exact List.prefix_rfl
  | tail _ step ih => exact ih.trans (catalog_prefix_write step)

/-! ## Labels carried -/

/-- The catalog knows every label that a live node carries. -/
def Catalogued (g : Graph) : Prop :=
  ∀ id node label, g.node? id = some node → node.hasLabel label = true → label ∈ g.catalog.labels

theorem Catalogued.empty (config : GraphConfig) : (Graph.empty config).Catalogued := by
  intro id node label found
  cases found

/-- A label carried after a write was carried before, or the write attached it. -/
theorem Catalogued.write (catalogued : g.Catalogued) (stored : g.Stored) (step : Write g g') :
    g'.Catalogued := by
  intro id node' label found' carries
  rw [stored.mem_catalog_write_iff step]
  by_cases before : ∃ node, g.node? id = some node ∧ node.hasLabel label = true
  · obtain ⟨node, found, carried⟩ := before
    exact .inl (catalogued id node label found carried)
  · exact .inr ⟨id, node', found', carries, fun node found =>
      Bool.eq_false_iff.2 fun carried => before ⟨node, found, carried⟩⟩

theorem Reachable.catalogued (reachable : g.Reachable) : g.Catalogued := by
  have both : g.Stored ∧ g.Catalogued :=
    reachable.of_writes (P := fun g => g.Stored ∧ g.Catalogued)
      (fun config => ⟨.empty config, .empty config⟩)
      fun kept step => ⟨kept.1.write step, kept.2.write kept.1 step⟩
  exact both.2

/-! ## Labels attached -/

/-- The operation attaches the label, to a node that it creates or to a live node
that lacks it. -/
inductive Attaches (g : Graph) (label : String) : Operation → Prop
  | created {labels : List String} {properties : List (String × Value)} :
    label ∈ labels → Attaches g label (.createNode labels properties)
  | added {id : NodeId} {node : Node} :
    g.node? id = some node → label ∉ node.labels → Attaches g label (.addLabel id label)

/-- One of the operations, in the graph that it came to, attached the label. -/
def AttachedBy (g : Graph) (label : String) (operations : List Operation) : Prop :=
  ∃ earlier operation later, operations = earlier ++ operation :: later ∧
    (g.afterAll earlier).Attaches label operation

theorem attachedBy_cons_iff {operation : Operation} {operations : List Operation} :
    g.AttachedBy label (operation :: operations) ↔
      g.Attaches label operation ∨ (g.after operation).AttachedBy label operations := by
  constructor
  · rintro ⟨earlier, attaching, later, split, attaches⟩
    cases earlier with
    | nil =>
      cases split
      exact .inl attaches
    | cons first earlier =>
      cases split
      exact .inr ⟨earlier, attaching, later, rfl, attaches⟩
  · rintro (attaches | ⟨earlier, attaching, later, rfl, attaches⟩)
    · exact ⟨[], operation, operations, rfl, attaches⟩
    · exact ⟨operation :: earlier, attaching, later, rfl, attaches⟩

theorem not_gains_self : ¬Gains g g label := not_gains_of_nodes fun _ _ => id

/-- Adding a label to a node makes the graph gain just that label, and only where the node
did not carry it. -/
theorem gains_addLabel_iff {id : NodeId} {attached : String} :
    Gains g (addLabel id attached g).2 label ↔ g.Attaches label (.addLabel id attached) := by
  unfold addLabel
  cases found : g.node? id with
  | none =>
    refine iff_of_false not_gains_self fun attaches => ?_
    cases attaches with
    | added live _ => cases found.symm.trans live
  | some node =>
    dsimp only
    cases attach : node.attach? attached with
    | none =>
      refine iff_of_false not_gains_self fun attaches => ?_
      cases attaches with
      | added live lacks =>
        cases found.symm.trans live
        rw [← Node.hasLabel_iff, Bool.not_eq_true] at lacks
        rw [Node.attach?_eq_some_iff.2 ⟨lacks, rfl⟩] at attach
        cases attach
    | some node' =>
      refine (gains_storeLabel_iff found attach).trans ⟨fun same => ?_, fun attaches => ?_⟩
      · subst same
        obtain ⟨lacks, -⟩ := Node.attach?_eq_some_iff.1 attach
        rw [← Bool.not_eq_true, Node.hasLabel_iff] at lacks
        exact .added found lacks
      · cases attaches
        rfl

theorem not_gains_removeLabel (id : NodeId) (detached : String) :
    ¬Gains g (removeLabel id detached g).2 label := by
  unfold removeLabel
  cases found : g.node? id with
  | none => exact not_gains_self
  | some node =>
    dsimp only
    cases detach : node.detach? detached with
    | none => exact not_gains_self
    | some node' =>
      obtain ⟨-, rfl⟩ := Node.detach?_eq_some_iff.1 detach
      refine not_gains_of_insert found rfl fun carries => ?_
      rw [Node.hasLabel_iff] at carries ⊢
      exact (List.mem_filter.1 carries).1

theorem not_gains_setProperty (target : EntityRef) (key : String) (value : Value) :
    ¬Gains g (setProperty target key value g).2 label := by
  cases target with
  | node id =>
    dsimp only [setProperty]
    cases found : g.node? id with
    | none => exact not_gains_self
    | some node => exact not_gains_of_insert found rfl fun carries => carries
  | relationship id =>
    dsimp only [setProperty]
    cases g.relationship? id with
    | none => exact not_gains_self
    | some rel => exact not_gains_of_nodes fun _ _ found => found

theorem Linked.not_gains_deleteNode (linked : g.Linked) (id : NodeId) :
    ¬Gains g (deleteNode id g).2 label := by
  cases live : g.hasNode id with
  | false =>
    rw [deleteNode_eq_error live]
    exact not_gains_self
  | true =>
    obtain ⟨g', deleted, deletes⟩ := linked.deleteNode_eq_ok live
    rw [deleted]
    refine not_gains_of_nodes fun n node found => ?_
    rw [deletes.nodes] at found
    split at found
    · cases found
    · exact found

/-- A label is gained over an operation exactly if the operation attaches it. -/
theorem Coherent.gains_after_iff (coherent : g.Coherent) {operation : Operation} :
    Gains g (g.after operation) label ↔ g.Attaches label operation := by
  cases operation with
  | createNode labels properties =>
    refine coherent.stored.gains_createNode_iff.trans ⟨.created, fun attaches => ?_⟩
    cases attaches with
    | created mem => exact mem
  | addLabel id attached => exact gains_addLabel_iff
  | removeLabel id detached =>
    exact iff_of_false (not_gains_removeLabel id detached) fun attaches => by cases attaches
  | setProperty target key value =>
    exact iff_of_false (not_gains_setProperty target key value) fun attaches => by cases attaches
  | deleteNode id =>
    exact iff_of_false (coherent.linked.not_gains_deleteNode id) fun attaches => by cases attaches
  | createRelationship type source target properties =>
    refine iff_of_false ?_ fun attaches => by cases attaches
    rcases createRelationship_stores type source target properties g with ⟨e, refused⟩ | ⟨-, made⟩
    · rw [after, refused]
      exact not_gains_self
    · rw [after, made]
      exact not_gains_of_nodes fun _ _ found => found
  | deleteRelationship id =>
    refine iff_of_false ?_ fun attaches => by cases attaches
    rw [after, deleteRelationship]
    cases g.relationship? id with
    | none => exact not_gains_self
    | some rel => exact not_gains_of_nodes fun _ _ found => found
  | createIndex name =>
    refine iff_of_false ?_ fun attaches => by cases attaches
    rw [after, createIndex]
    cases g.indexes.declare name g.nodes.values with
    | error e => exact not_gains_self
    | ok indexes => exact not_gains_of_nodes fun _ _ found => found
  | dropIndex name =>
    refine iff_of_false ?_ fun attaches => by cases attaches
    rw [after, dropIndex]
    cases g.indexes.drop name with
    | error e => exact not_gains_self
    | ok indexes => exact not_gains_of_nodes fun _ _ found => found

/-! ## What the catalog learns -/

theorem Coherent.mem_catalog_after_iff (coherent : g.Coherent) (operation : Operation) :
    label ∈ (g.after operation).catalog.labels ↔
      label ∈ g.catalog.labels ∨ g.Attaches label operation := by
  rw [← coherent.gains_after_iff]
  rcases g.after_cases operation with ⟨id, rfl⟩ | same | step
  · rw [after, or_iff_left (coherent.linked.not_gains_deleteNode id)]
    cases live : g.hasNode id with
    | false => rw [deleteNode_eq_error live]
    | true =>
      obtain ⟨g', deleted, deletes⟩ := coherent.linked.deleteNode_eq_ok live
      rw [deleted, deletes.catalog]
  · rw [same, or_iff_left not_gains_self]
  · exact coherent.stored.mem_catalog_write_iff step.write

/-- After a run the catalog knows what it knew before and what the run attached. -/
theorem Reachable.mem_catalog_afterAll_iff (reachable : g.Reachable)
    (operations : List Operation) :
    label ∈ (g.afterAll operations).catalog.labels ↔
      label ∈ g.catalog.labels ∨ g.AttachedBy label operations := by
  induction operations generalizing g with
  | nil =>
    refine ⟨.inl, fun either => either.elim (fun known => known) ?_⟩
    rintro ⟨earlier, operation, later, split, -⟩
    cases earlier <;> cases split
  | cons operation rest ih =>
    rw [attachedBy_cons_iff, ← or_assoc, ← reachable.coherent.mem_catalog_after_iff]
    exact ih (reachable.after operation)

theorem catalog_prefix_afterAll (g : Graph) (operations : List Operation) :
    g.catalog.labels <+: (g.afterAll operations).catalog.labels := by
  induction operations generalizing g with
  | nil => exact List.prefix_rfl
  | cons operation rest ih =>
    exact (catalog_prefix_writes (writes_after g operation)).trans (ih (g.after operation))

/-! ## The label index and the catalog -/

/-- After any run no node carries a label twice or has a null property; the label
index lists under a label exactly the live nodes that carry it, ascending, and counts
them. The catalog names no label twice, knows exactly the labels that the run attached,
so every label carried, and from there on only grows at its end. -/
theorem labels_exact (config : GraphConfig) (operations : List Operation) :
    let g := (Graph.empty config).afterAll operations
    (∀ id node, g.node? id = some node →
      node.labels.Nodup ∧ ∀ key, node.get? key ≠ some .null) ∧
    (∀ label,
      (∀ id, id ∈ g.nodesWithLabel label ↔
        ∃ node, g.node? id = some node ∧ label ∈ node.labels) ∧
      (g.nodesWithLabel label).Pairwise (fun a b => compare a b = .lt) ∧
      g.labelCount label = (g.nodesWithLabel label).length) ∧
    g.catalog.labels.Nodup ∧
    (∀ label, label ∈ g.catalog.labels ↔ (Graph.empty config).AttachedBy label operations) ∧
    (∀ id node label, g.node? id = some node → label ∈ node.labels →
      label ∈ g.catalog.labels) ∧
    ∀ later, g.catalog.labels <+: (g.afterAll later).catalog.labels := by
  intro g
  have start := Reachable.empty config
  have reachable : g.Reachable := start.afterAll operations
  have coherent := reachable.coherent
  refine ⟨fun id node found => ?_,
    fun label => ⟨fun id => ?_, g.nodesWithLabel_ascending label, ?_⟩, reachable.catalog_nodup,
    fun label => ?_, fun id node label found carried => ?_, g.catalog_prefix_afterAll⟩
  · have proper := coherent.stored.nodes id node found
    refine ⟨proper.labels, fun key stored => ?_⟩
    cases proper.noNull key .null stored
  · rw [coherent.labelled.mem_nodesWithLabel_iff]
    simp only [Node.hasLabel_iff]
  · exact OrderedSet.size_eq_length _
  · rw [start.mem_catalog_afterAll_iff operations]
    exact or_iff_right List.not_mem_nil
  · exact reachable.catalogued id node label found (Node.hasLabel_iff.2 carried)

end Graph

end PropertyGraph
