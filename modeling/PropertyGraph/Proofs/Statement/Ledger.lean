import PropertyGraph.Proofs.Graph.Attachment
import PropertyGraph.Proofs.Graph.Coherence
import PropertyGraph.Proofs.Graph.Deletion
import PropertyGraph.Proofs.Statement.Reachable

/-!
# The counters of a statement

The counters are kept beside the graph, by every change in its own way. They add
up all the same: at every point, whatever failed before it, what was there at the
start and what was created is what is there now and what was deleted, and the
labels counted as added are the labels that the catalog has learnt since.
-/

namespace PropertyGraph

open Std

/-! ## What operations do to the counts -/

namespace Graph

variable {g : Graph}

/-- As many nodes and relationships, and the same labels known. -/
structure SameTally (g g' : Graph) : Prop where
  nodes : g'.nodeCount = g.nodeCount
  relationships : g'.relationshipCount = g.relationshipCount
  catalog : g'.catalog = g.catalog

theorem SameTally.refl (g : Graph) : SameTally g g := ⟨rfl, rfl, rfl⟩

theorem sameTally_setProperty (target : EntityRef) (key : String) (value : Value) (g : Graph) :
    SameTally g (setProperty target key value g).2 := by
  cases target with
  | node id =>
    dsimp only [setProperty]
    cases stored : g.node? id with
    | none => exact .refl g
    | some node => exact ⟨OrderedMap.size_insert_of_get? stored _, rfl, rfl⟩
  | relationship id =>
    dsimp only [setProperty]
    cases stored : g.relationship? id with
    | none => exact .refl g
    | some rel => exact ⟨rfl, OrderedMap.size_insert_of_get? stored _, rfl⟩

theorem sameTally_removeLabel (id : NodeId) (label : String) (g : Graph) :
    SameTally g (removeLabel id label g).2 := by
  unfold removeLabel
  cases stored : g.node? id with
  | none => exact .refl g
  | some node =>
    dsimp only
    cases node.detach? label with
    | none => exact .refl g
    | some node' => exact ⟨OrderedMap.size_insert_of_get? stored _, rfl, rfl⟩

/-- A label is attached, and the catalog told, or nothing happens. -/
theorem addLabel_cases (id : NodeId) (label : String) (g : Graph) :
    ((∃ e, addLabel id label g = (.error e, g)) ∨ addLabel id label g = (.ok false, g)) ∨
      ∃ g', addLabel id label g = (.ok true, g') ∧ g'.nodeCount = g.nodeCount ∧
        g'.relationshipCount = g.relationshipCount ∧ g'.catalog = g.catalog.register label := by
  unfold addLabel
  cases stored : g.node? id with
  | none => exact .inl (.inl ⟨_, rfl⟩)
  | some node =>
    dsimp only
    cases node.attach? label with
    | none => exact .inl (.inr rfl)
    | some node' => exact .inr ⟨_, rfl, OrderedMap.size_insert_of_get? stored _, rfl, rfl⟩

/-- A relationship is created, under an identity that was free, or nothing happens. -/
theorem Stored.createRelationship_cases (stored : g.Stored) (type : String)
    (source target : NodeId) (properties : List (String × Value)) :
    (∃ e, createRelationship type source target properties g = (.error e, g)) ∨
      ∃ id g', createRelationship type source target properties g = (.ok id, g') ∧
        g'.nodeCount = g.nodeCount ∧ g'.relationshipCount = g.relationshipCount + 1 ∧
        g'.catalog = g.catalog := by
  rcases createRelationship_stores type source target properties g with refused | ⟨-, made⟩
  · exact .inl refused
  · have free : g.takeRelId.2.relationship?
        (Relationship.create g.takeRelId.1 type source target properties).id = none :=
      stored.takeRelId_free
    exact .inr ⟨_, _, made, rfl, relationshipCount_storeRelationship free, rfl⟩

end Graph

namespace Execution

variable {g : Graph} {x x' : Execution}

/-! ## The balance -/

/-- The counters account for the difference between the graph at the start and
the graph now. -/
structure Balanced (g : Graph) (x : Execution) : Prop where
  reachable : x.graph.Reachable
  nodes : x.graph.nodeCount + x.stats.nodesDeleted = g.nodeCount + x.stats.nodesCreated
  relationships : x.graph.relationshipCount + x.stats.relationshipsDeleted =
    g.relationshipCount + x.stats.relationshipsCreated
  catalog : x.graph.catalog.labels = g.catalog.labels ++ x.newLabels.reverse
  labels : x.stats.labelsAdded = x.newLabels.length

theorem Balanced.start (reachable : g.Reachable) : Balanced g (start g) where
  reachable := reachable
  nodes := rfl
  relationships := rfl
  catalog := (List.append_nil _).symm
  labels := rfl

/-- The change keeps the balance. -/
abbrev KeepsBalance (g : Graph) (x x' : Execution) : Prop := Balanced g x → Balanced g x'

/-- Where the counts are the same and only writes of properties were counted, the
balance is kept. -/
theorem Balanced.of_sameTally (balanced : Balanced g x) (reachable : x'.graph.Reachable)
    (same : x.graph.SameTally x'.graph) (written : Nat)
    (stats : x'.stats = { x.stats with propertiesSet := written })
    (newLabels : x'.newLabels = x.newLabels) : Balanced g x' where
  reachable := reachable
  nodes := by
    rw [same.nodes, stats]
    exact balanced.nodes
  relationships := by
    rw [same.relationships, stats]
    exact balanced.relationships
  catalog := by
    rw [same.catalog, newLabels]
    exact balanced.catalog
  labels := by
    rw [stats, newLabels]
    exact balanced.labels

/-! ## Counting labels -/

/-- The labels counted are those that a catalog has learnt beyond a base, and it
has learnt all that the graph's own catalog knows. -/
structure Learnt (base : List String) (c : LabelCatalog) (x : Execution) : Prop where
  labels : c.labels = base ++ x.newLabels.reverse
  known : ∀ label ∈ x.graph.catalog.labels, label ∈ c.labels
  base_known : ∀ label ∈ base, label ∈ x.graph.catalog.labels
  count : x.stats.labelsAdded = x.newLabels.length

/-- A label is counted where it is learnt; one that the graph knows or that was counted
before is passed over. -/
theorem Learnt.countLabel {base : List String} {c : LabelCatalog} (learnt : Learnt base c x)
    (label : String) :
    Learnt base (c.register label) (x.countLabel (x.graph.catalog.contains label) label) := by
  have known_iff : (x.graph.catalog.contains label || x.newLabels.contains label) = true ↔
      label ∈ c.labels := by
    rw [Bool.or_eq_true, LabelCatalog.contains_iff, List.contains_iff_mem]
    constructor
    · intro either
      rcases either with known | counted
      · exact learnt.known label known
      · rw [learnt.labels]
        exact List.mem_append_right _ (List.mem_reverse.2 counted)
    · intro mem
      rw [learnt.labels, List.mem_append, List.mem_reverse] at mem
      exact mem.imp_left (learnt.base_known label)
  unfold Execution.countLabel
  split
  · rename_i known
    rw [LabelCatalog.register_of_mem (known_iff.1 known)]
    exact learnt
  · rename_i unknown
    rw [LabelCatalog.register_of_not_mem fun mem => unknown (known_iff.2 mem)]
    refine ⟨?_, fun other mem => ?_, learnt.base_known, ?_⟩
    · show c.labels ++ [label] = base ++ (label :: x.newLabels).reverse
      rw [learnt.labels, List.reverse_cons, List.append_assoc]
    · exact List.mem_append_left _ (learnt.known other mem)
    · show x.stats.labelsAdded + 1 = (label :: x.newLabels).length
      rw [learnt.count, List.length_cons]

theorem Learnt.foldl_countLabel {base : List String} {c : LabelCatalog} (labels : List String)
    (learnt : Learnt base c x) :
    Learnt base (labels.foldl .register c) (labels.foldl
      (fun x label => x.countLabel (x.graph.catalog.contains label) label) x) := by
  induction labels generalizing x c with
  | nil => exact learnt
  | cons label rest ih => exact ih (learnt.countLabel label)

theorem Balanced.learnt (balanced : Balanced g x) :
    Learnt g.catalog.labels x.graph.catalog x where
  labels := balanced.catalog
  known _ := id
  base_known label mem := by
    rw [balanced.catalog]
    exact List.mem_append_left _ mem
  count := balanced.labels

/-! ## The changes -/

/-- A node created for a slot is counted, with its properties and with the labels that are
new to the graph. -/
theorem Balanced.createSlotNode (balanced : Balanced g x) (slot : NodeSlot) :
    Balanced g (createSlotNode slot x).2 := by
  have graph := (createSlotNode_spec slot x).2
  have stored := balanced.reachable.coherent.stored
  have learnt := balanced.learnt.foldl_countLabel slot.labels
  obtain ⟨_, n, counted⟩ := countLabels_frame slot.labels x
  have stats := congrArg Execution.stats counted
  have reachable := graph_reachable_of_operates balanced.reachable
    (operates_createSlotNode slot x)
  refine ⟨reachable, ?_, ?_, ?_, learnt.count⟩
  · have grown := stored.nodeCount_createNode slot.labels slot.literals
    have before := balanced.nodes
    rw [graph]
    dsimp only [Execution.createSlotNode, noteCreated]
    rw [stats]
    dsimp only
    omega
  · rw [graph]
    dsimp only [Execution.createSlotNode, noteCreated]
    rw [stats]
    exact balanced.relationships
  · rw [graph, Graph.catalog_createNode]
    exact learnt.labels

theorem Balanced.createSlotRel (balanced : Balanced g x) (nodes : List NodeId) (slot : RelSlot) :
    Balanced g (createSlotRel nodes slot x).2 := by
  have reachable := graph_reachable_of_operates balanced.reachable
    (operating_createSlotRel nodes slot x)
  unfold Execution.createSlotRel at reachable ⊢
  rcases balanced.reachable.coherent.stored.createRelationship_cases slot.type
      (nodes[slot.source]?.getD default) (nodes[slot.target]?.getD default) slot.literals with
    ⟨e, refused⟩ | ⟨id, graph, made, nodeCount, relationshipCount, catalog⟩
  · rw [RefusableAction.bind_of_error (onGraph_of_error refused)]
    exact balanced
  · rw [RefusableAction.bind_of_ok (onGraph_of_ok made)] at reachable ⊢
    refine ⟨reachable, ?_, ?_, ?_, balanced.labels⟩
    · exact nodeCount ▸ balanced.nodes
    · have before := balanced.relationships
      show graph.relationshipCount + x.stats.relationshipsDeleted =
        g.relationshipCount + (x.stats.relationshipsCreated + 1)
      omega
    · exact catalog ▸ balanced.catalog

theorem Balanced.setProperty (balanced : Balanced g x) (target : EntityRef) (key : String)
    (value : Value) : Balanced g (setProperty target key value x).2 := by
  have same := Graph.sameTally_setProperty target key value x.graph
  refine of_onGraph_bind (P := fun x' => x'.graph.Reachable → Balanced g x')
    (fun reachable => ?_) (fun _ reachable => ?_) (graph_reachable_of_operates balanced.reachable
      (operating_setProperty target key value x))
  · exact balanced.of_sameTally reachable same x.stats.propertiesSet rfl rfl
  · exact balanced.of_sameTally reachable same (x.stats.propertiesSet + 1) rfl rfl

theorem Balanced.removeLabel (balanced : Balanced g x) (var : String) (target : EntityRef)
    (label : String) : Balanced g (removeLabel var target label x).2 := by
  cases target with
  | relationship _ => exact balanced
  | node id =>
    have same := Graph.sameTally_removeLabel id label x.graph
    refine of_onGraph_bind (P := fun x' => x'.graph.Reachable → Balanced g x')
      (fun reachable => ?_) (fun _ reachable => ?_) (graph_reachable_of_operates
        balanced.reachable (operating_removeLabel var (.node id) label x))
    · exact balanced.of_sameTally reachable same x.stats.propertiesSet rfl rfl
    · exact balanced.of_sameTally reachable same x.stats.propertiesSet rfl rfl

/-- A label that is attached is counted once, when the graph has not met it before. -/
theorem Balanced.addLabel (balanced : Balanced g x) (var : String) (target : EntityRef)
    (label : String) : Balanced g (addLabel var target label x).2 := by
  have reachable := graph_reachable_of_operates balanced.reachable
    (operating_addLabel var target label x)
  cases target with
  | relationship _ => exact balanced
  | node id =>
    dsimp only [Execution.addLabel] at reachable ⊢
    rw [RefusableAction.bind_get] at reachable ⊢
    rcases Graph.addLabel_cases id label x.graph with
      (⟨e, refused⟩ | kept) | ⟨graph, attached, nodeCount, relationshipCount, catalog⟩
    · rw [RefusableAction.bind_of_error (onGraph_of_error refused)]
      exact balanced
    · rw [RefusableAction.bind_of_ok (onGraph_of_ok kept)]
      exact balanced
    · rw [RefusableAction.bind_of_ok (onGraph_of_ok attached)] at reachable ⊢
      -- The catalog was read before the label was attached.
      have learnt := balanced.learnt.countLabel label
      obtain ⟨_, n, counted⟩ := countLabel_frame (x.graph.catalog.contains label) label x
      have stats := congrArg Execution.stats counted
      have moved : Execution.countLabel (x.graph.catalog.contains label) label
          { x with graph } =
          { x.countLabel (x.graph.catalog.contains label) label with graph } := by
        unfold countLabel
        split <;> rfl
      show Balanced g (countLabel (x.graph.catalog.contains label) label { x with graph })
      rw [moved]
      refine ⟨?_, ?_, ?_, ?_, learnt.count⟩
      · exact moved ▸ reachable
      · dsimp only
        rw [nodeCount, stats]
        exact balanced.nodes
      · dsimp only
        rw [relationshipCount, stats]
        exact balanced.relationships
      · dsimp only
        rw [catalog]
        exact learnt.labels

/-- Removing an entity is counted together with the relationships that go with it, and a
removal that fails is not counted. -/
theorem Balanced.remove (balanced : Balanced g x) (target : EntityRef) :
    Balanced g (remove target x).2 := by
  have reachable := graph_reachable_of_operates balanced.reachable (operating_remove target x)
  cases target with
  | node id =>
    dsimp only [Execution.remove] at reachable ⊢
    cases live : x.graph.hasNode id with
    | false =>
      rw [RefusableAction.bind_of_error (onGraph_of_error (Graph.deleteNode_eq_error live))]
      exact balanced
    | true =>
      obtain ⟨graph, deleted, deletes⟩ :=
        balanced.reachable.coherent.linked.deleteNode_eq_ok live
      rw [RefusableAction.bind_of_ok (onGraph_of_ok deleted)] at reachable ⊢
      refine ⟨reachable, ?_, ?_, deletes.catalog ▸ balanced.catalog, balanced.labels⟩
      · have before := balanced.nodes
        have fewer := deletes.nodeCount
        show graph.nodeCount + (x.stats.nodesDeleted + 1) = g.nodeCount + x.stats.nodesCreated
        omega
      · have before := balanced.relationships
        have fewer := deletes.relationshipCount
        show graph.relationshipCount + (x.stats.relationshipsDeleted + _) =
          g.relationshipCount + x.stats.relationshipsCreated
        omega
  | relationship id =>
    dsimp only [Execution.remove] at reachable ⊢
    cases stored : x.graph.relationship? id with
    | none =>
      rw [RefusableAction.bind_of_error
        (onGraph_of_error (Graph.deleteRelationship_eq_error stored))]
      exact balanced
    | some rel =>
      rw [RefusableAction.bind_of_ok
        (onGraph_of_ok (Graph.deleteRelationship_eq_ok stored))] at reachable ⊢
      refine ⟨reachable, balanced.nodes, ?_, balanced.catalog, balanced.labels⟩
      have struck := Graph.relationshipCount_strikeRelationship stored
      have before := balanced.relationships
      show (x.graph.strikeRelationship id rel).relationshipCount +
        (x.stats.relationshipsDeleted + 1) = g.relationshipCount + x.stats.relationshipsCreated
      omega

/-! ## The balance of a statement -/

/-- All that calls come down to keeps the balance. -/
theorem keepsBalance_goesAlong (g : Graph) : GoesAlong (KeepsBalance g) where
  createSlotNode slot _ := .single fun balanced => balanced.createSlotNode slot
  createSlotRel nodes slot _ := .single fun balanced => balanced.createSlotRel nodes slot
  setProperty target key value _ := .single fun balanced => balanced.setProperty target key value
  addLabel var target label _ := .single fun balanced => balanced.addLabel var target label
  removeLabel var target label _ := .single fun balanced => balanced.removeLabel var target label
  remove target _ := .single fun balanced => balanced.remove target

theorem Balanced.along (balanced : Balanced g x)
    (walked : Relation.ReflTransGen (KeepsBalance g) x x') : Balanced g x' := by
  induction walked with
  | refl => exact balanced
  | tail _ step ih => exact step ih

/-- Whatever calls were made on an execution from a reachable graph, failed or not:
the nodes and relationships there are now and those deleted are as many as there
were at the start and were created, and the labels counted as added are as many as
the catalog has more than at the start. They are the labels, each counted once,
that the writes since the start attached and the catalog did not know then. -/
theorem counters_balance (reachable : g.Reachable) (calls : List Call) :
    let x := (start g).afterCalls calls
    x.graph.nodeCount + x.stats.nodesDeleted = g.nodeCount + x.stats.nodesCreated ∧
      x.graph.relationshipCount + x.stats.relationshipsDeleted =
        g.relationshipCount + x.stats.relationshipsCreated ∧
      x.graph.catalog.labels.length = g.catalog.labels.length + x.stats.labelsAdded ∧
      Nonempty (g.Walk x.graph) ∧
      ∃ added : List String, added.Nodup ∧ added.length = x.stats.labelsAdded ∧
        ∀ (walk : g.Walk x.graph) (label : String),
          label ∈ added ↔ label ∉ g.catalog.labels ∧ walk.Attaches label := by
  intro x
  have balanced : Balanced g x :=
    (Balanced.start reachable).along ((keepsBalance_goesAlong g).afterCalls _ calls)
  have walked : Graph.Writes g x.graph :=
    writes_of_operates (operates_goesAlong.afterCalls (start g) calls)
  have nodup := balanced.reachable.catalog_nodup
  rw [balanced.catalog, List.nodup_append] at nodup
  refine ⟨balanced.nodes, balanced.relationships, ?_, walked.walk, x.newLabels.reverse, nodup.2.1,
    ?_, fun walk label => ?_⟩
  · rw [balanced.catalog, List.length_append, List.length_reverse, balanced.labels]
  · rw [List.length_reverse, balanced.labels]
  · have known := reachable.coherent.stored.mem_catalog_walk_iff label walk
    rw [balanced.catalog, List.mem_append] at known
    constructor
    · intro mem
      have new : label ∉ g.catalog.labels := fun old => nodup.2.2 label old label mem rfl
      exact ⟨new, (known.1 (.inr mem)).resolve_left new⟩
    · intro given
      rcases given with ⟨new, attached⟩
      exact (known.2 (.inr attached)).resolve_left new

/-- Updates that fail halfway count what they did, and a label is counted when it is first
attached. -/
theorem counters_balance_over_failed_updates :
    let g := (Graph.empty .standard).afterAll [.createNode ["Person"] [],
      .createRelationship "knows" ⟨1⟩ ⟨1⟩ []]
    let row : BindingRow := ⟨[("p", .node ⟨1⟩)]⟩
    let updates : List Update := [⟨"p", .addLabel "Admin"⟩, ⟨"q", .delete⟩]
    let calls : List Call := [.apply row updates, .delete (.node ⟨1⟩),
      .create ⟨[⟨some "d", ["Dog", "Admin"], []⟩], [], [.node 0]⟩ .empty]
    g.Reachable ∧ (apply row updates (start g)).1 = .error (.unboundVariable "q") ∧
      ∃ x, x = (start g).afterCalls calls ∧ x.stats =
        { labelsAdded := 2, nodesCreated := 1, nodesDeleted := 1, relationshipsDeleted := 1 } ∧
      x.graph.nodeCount + x.stats.nodesDeleted = g.nodeCount + x.stats.nodesCreated ∧
      ∃ added : List String, added.Nodup ∧ added.length = 2 ∧
        ∀ (walk : g.Walk x.graph) (label : String),
          label ∈ added ↔ label ∉ g.catalog.labels ∧ walk.Attaches label := by
  intro g row updates calls
  have reachable : g.Reachable := (Graph.Reachable.empty .standard).afterAll _
  have failed : (apply row updates (start g)).1 = .error (.unboundVariable "q") := by decide +kernel
  have stats : ((start g).afterCalls calls).stats =
      { labelsAdded := 2, nodesCreated := 1, nodesDeleted := 1, relationshipsDeleted := 1 } := by
    decide +kernel
  have balance := counters_balance reachable calls
  obtain ⟨x, defined⟩ : ∃ x, x = (start g).afterCalls calls := ⟨_, rfl⟩
  rw [← defined] at stats balance
  obtain ⟨nodes, _, _, _, added, nodup, counted, attached⟩ := balance
  rw [stats] at counted
  exact ⟨reachable, failed, x, defined, stats, nodes, added, nodup, counted, attached⟩

end Execution

end PropertyGraph
