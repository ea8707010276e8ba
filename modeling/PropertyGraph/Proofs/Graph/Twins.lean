import PropertyGraph.Proofs.Graph.Scan

/-!
# Graphs that differ in their indexes only

Two reachable graphs that differ in nothing but their indexes are twins. They
answer every operation that is not on indexes alike and end up twins again, and
an operation on the indexes of one of them leaves them twins. A scan takes other
ways in the one than in the other, and finds the same nodes.
-/

namespace PropertyGraph

/-! ## Replies -/

/-- What an operation on a graph answers. -/
inductive Reply where
  | done
  | node (id : NodeId)
  /-- Whether the labels of a node changed. -/
  | changed (changed : Bool)
  /-- The value that a property had. -/
  | former (value : Option Value)
  | relationship (id : RelId)
  /-- The relationships that were deleted together with a node. -/
  | detached (ids : List RelId)
  deriving DecidableEq

namespace Graph

/-- What a graph replies to an operation. -/
def reply (g : Graph) : Operation → Except GraphError Reply
  | .createNode labels properties => .ok (.node (g.createNode labels properties).1)
  | .addLabel id label => (addLabel id label g).1.map .changed
  | .removeLabel id label => (removeLabel id label g).1.map .changed
  | .setProperty target key value => (setProperty target key value g).1.map .former
  | .deleteNode id => (deleteNode id g).1.map .detached
  | .createRelationship type source target properties =>
    (createRelationship type source target properties g).1.map .relationship
  | .deleteRelationship id => (deleteRelationship id g).1.map fun _ => .done
  | .createIndex name => (createIndex name g).1.map fun _ => .done
  | .dropIndex name => (dropIndex name g).1.map fun _ => .done

variable {g g' g'' : Graph}

/-- What is replied to an operation that is not on indexes does not depend on
them. -/
theorem reply_bare {operation : Operation} (ordinary : operation.isIndexing = false) :
    g.bare.reply operation = g.reply operation := by
  have unseen : ∀ {α : Type} {action : Action α} (f : α → Reply),
      RefusableAction.Overlooks bare action → (action g.bare).1.map f = (action g).1.map f := by
    intro α action f overlooks
    rw [overlooks g]
  cases operation with
  | createNode labels properties => rfl
  | addLabel id label => exact unseen _ (overlooks_addLabel id label)
  | removeLabel id label => exact unseen _ (overlooks_removeLabel id label)
  | setProperty target key value => exact unseen _ (overlooks_setProperty target key value)
  | deleteNode id => exact unseen _ (overlooks_deleteNode id)
  | createRelationship type source target properties =>
    exact unseen _ (overlooks_createRelationship type source target properties)
  | deleteRelationship id => exact unseen _ (overlooks_deleteRelationship id)
  | createIndex _ => cases ordinary
  | dropIndex _ => cases ordinary

/-! ## Twins -/

/-- Reachable graphs that differ in nothing but their indexes. -/
structure Twins (g g' : Graph) : Prop where
  left : g.Reachable
  right : g'.Reachable
  alike : g.bare = g'.bare

namespace Twins

theorem refl (reachable : g.Reachable) : g.Twins g := ⟨reachable, reachable, rfl⟩

theorem symm (twins : g.Twins g') : g'.Twins g := ⟨twins.right, twins.left, twins.alike.symm⟩

theorem trans (twins : g.Twins g') (twins' : g'.Twins g'') : g.Twins g'' :=
  ⟨twins.left, twins'.right, twins.alike.trans twins'.alike⟩

/-- An operation on indexes leaves a graph its own twin. -/
theorem after_of_isIndexing (reachable : g.Reachable) (operation : Operation)
    (indexing : operation.isIndexing = true) : (g.after operation).Twins g :=
  ⟨reachable.after operation, reachable, bare_after_of_isIndexing indexing⟩

theorem after (twins : g.Twins g') (operation : Operation)
    (ordinary : operation.isIndexing = false) :
    (g.after operation).Twins (g'.after operation) where
  left := twins.left.after operation
  right := twins.right.after operation
  alike := by rw [bare_after ordinary, bare_after ordinary, twins.alike]

theorem reply (twins : g.Twins g') {operation : Operation}
    (ordinary : operation.isIndexing = false) : g.reply operation = g'.reply operation := by
  rw [← reply_bare ordinary, twins.alike, reply_bare ordinary]

/-! ### What twins have in common -/

theorem node? (twins : g.Twins g') : g.node? = g'.node? :=
  congrArg (fun g => g.nodes.get?) twins.alike

theorem relationship? (twins : g.Twins g') : g.relationship? = g'.relationship? :=
  congrArg (fun g => g.relationships.get?) twins.alike

theorem catalog (twins : g.Twins g') : g.catalog = g'.catalog :=
  congrArg (fun g => g.catalog) twins.alike

/-- A scan finds the same nodes in twins, if in another order. -/
theorem scan (twins : g.Twins g') (label : Option String)
    (predicates : List PropertyPredicate) :
    (g.scan label predicates).Perm (g'.scan label predicates) := by
  have once : ∀ {g : Graph}, g.Reachable → (g.scan label predicates).Nodup := fun reachable =>
    reachable.coherent.runScan_nodup (planScan_spec _ label predicates).2.2
  refine (List.perm_ext_iff_of_nodup (once twins.left) (once twins.right)).2 fun id => ?_
  rw [twins.left.coherent.mem_scan_iff, twins.right.coherent.mem_scan_iff, Selects, Selects,
    twins.node?]

end Twins

/-- What the graphs store and the identities they have left are the same. -/
structure SameStore (g g' : Graph) : Prop where
  nodes : g.nodes = g'.nodes
  relationships : g.relationships = g'.relationships
  catalog : g.catalog = g'.catalog
  nodeIds : g.nodeIds = g'.nodeIds
  relIds : g.relIds = g'.relIds

theorem Twins.sameStore (twins : g.Twins g') : g.SameStore g' where
  nodes := congrArg (fun g => g.nodes) twins.alike
  relationships := congrArg (fun g => g.relationships) twins.alike
  catalog := twins.catalog
  nodeIds := congrArg (fun g => g.nodeIds) twins.alike
  relIds := congrArg (fun g => g.relIds) twins.alike

/-- An operation that overlooks indexes runs alike in twins. -/
theorem parallel_of_overlooks {α : Type} {action : Action α} (operation : Operation)
    (overlooks : RefusableAction.Overlooks bare action)
    (ordinary : operation.isIndexing = false) (same : ∀ g, (action g).2 = g.after operation) :
    RefusableAction.Parallel Twins Eq action action := by
  intro g g' twins
  have unseen : ∀ g : Graph, (action g.bare).1 = (action g).1 := fun g => by rw [overlooks g]
  rw [same, same]
  refine ⟨.of_eq ?_, twins.after operation ordinary⟩
  rw [← unseen g, twins.alike, unseen g']

end Graph

end PropertyGraph
