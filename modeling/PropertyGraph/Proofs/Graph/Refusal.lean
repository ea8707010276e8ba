import PropertyGraph.Proofs.Graph.Deletion
import PropertyGraph.Proofs.Graph.Twins

/-!
# Operations that a graph refuses

An operation looks at everything it can be refused for before it writes. Only the
deletion of a node could be refused later, when relationships have already gone; it
is not, as long as the adjacency agrees with the relationships.
-/

namespace PropertyGraph

namespace Graph

variable {α : Type} {g : Graph}

/-- Refused in this graph, the action leaves it as it is. -/
abbrev CleanIn (g : Graph) (action : Action α) : Prop := RefusableAction.CleanAt g action

theorem clean_addLabel (id : NodeId) (label : String) : g.CleanIn (addLabel id label) := by
  intro e g' refused
  unfold addLabel at refused
  split at refused
  · cases refused
    rfl
  · split at refused <;> cases refused

theorem clean_removeLabel (id : NodeId) (label : String) :
    g.CleanIn (removeLabel id label) := by
  intro e g' refused
  unfold removeLabel at refused
  split at refused
  · cases refused
    rfl
  · split at refused <;> cases refused

theorem clean_setProperty (target : EntityRef) (key : String) (value : Value) :
    g.CleanIn (setProperty target key value) := by
  intro e g' refused
  unfold setProperty at refused
  split at refused
  · split at refused
    · cases refused
      rfl
    · cases refused
  · split at refused
    · cases refused
      rfl
    · cases refused

theorem clean_createRelationship (type : String) (source target : NodeId)
    (properties : List (String × Value)) :
    g.CleanIn (createRelationship type source target properties) := by
  intro e g' refused
  rcases createRelationship_stores type source target properties g with
    ⟨e', refused'⟩ | ⟨-, made⟩
  · cases refused'.symm.trans refused
    rfl
  · cases made.symm.trans refused

theorem clean_deleteRelationship (id : RelId) : g.CleanIn (deleteRelationship id) := by
  intro e g' refused
  cases stored : g.relationship? id with
  | none =>
    cases (deleteRelationship_eq_error stored).symm.trans refused
    rfl
  | some rel => cases (deleteRelationship_eq_ok stored).symm.trans refused

/-- The deletion of a node is refused if the node is not live, and then at once. -/
theorem Linked.clean_deleteNode (linked : g.Linked) (id : NodeId) :
    g.CleanIn (deleteNode id) := by
  intro e g' refused
  cases live : g.hasNode id with
  | false =>
    cases (deleteNode_eq_error live).symm.trans refused
    rfl
  | true =>
    obtain ⟨_, deleted, -⟩ := linked.deleteNode_eq_ok live
    cases deleted.symm.trans refused

theorem clean_createIndex (name : IndexName) : g.CleanIn (createIndex name) := by
  intro e g' refused
  unfold createIndex at refused
  split at refused <;> cases refused
  rfl

theorem clean_dropIndex (name : IndexName) : g.CleanIn (dropIndex name) := by
  intro e g' refused
  unfold dropIndex at refused
  split at refused <;> cases refused
  rfl

/-- An operation that is refused leaves the graph as it is. -/
theorem Linked.after_of_refused (linked : g.Linked) {operation : Operation} {e : GraphError}
    (refused : g.reply operation = .error e) : g.after operation = g := by
  have stays : ∀ {α : Type} {action : Action α} {f : α → Reply}, g.CleanIn action →
      (action g).1.map f = .error e → (action g).2 = g := fun clean failed =>
    clean e _ (Prod.ext (map_eq_error_iff.1 failed) rfl)
  cases operation with
  | createNode labels properties => cases refused
  | addLabel id label => exact stays (clean_addLabel id label) refused
  | removeLabel id label => exact stays (clean_removeLabel id label) refused
  | setProperty target key value => exact stays (clean_setProperty target key value) refused
  | deleteNode id => exact stays (linked.clean_deleteNode id) refused
  | createRelationship type source target properties =>
    exact stays (clean_createRelationship type source target properties) refused
  | deleteRelationship id => exact stays (clean_deleteRelationship id) refused
  | createIndex name => exact stays (clean_createIndex name) refused
  | dropIndex name => exact stays (clean_dropIndex name) refused

end Graph

end PropertyGraph
