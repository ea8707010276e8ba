import PropertyGraph.Graph.History
import PropertyGraph.Proofs.Action
import PropertyGraph.Proofs.Ordered.Map

/-!
# The writes that operations make

Every operation is a sequence of single writes, each made under what the
operation has checked by then; deleting a node makes several of them and the
others at most one, which takes no node away. A property that an empty graph has
and every write keeps is therefore a property of every reachable graph, whatever
was refused on the way.
-/

namespace PropertyGraph

open Std

namespace Graph

/-- One write to a graph, under what its operation has found in the graph. -/
inductive Write (g : Graph) : Graph → Prop
  | createNode (labels : List String) (properties : List (String × Value)) :
    Write g (g.createNode labels properties).2
  | storeLabel {id : NodeId} {node node' : Node} {label : String} :
    g.node? id = some node → node.attach? label = some node' →
    Write g (g.storeLabel id node' label)
  | strikeLabel {id : NodeId} {node node' : Node} {label : String} :
    g.node? id = some node → node.detach? label = some node' →
    Write g (g.strikeLabel id node' label)
  | storeProperty {id : NodeId} {node : Node} (key : String) (value : Value) :
    g.node? id = some node →
    Write g (g.storeProperty id (node.write key value) key (node.get? key))
  | writeRelationship {id : RelId} {rel : Relationship} (key : String) (value : Value) :
    g.relationship? id = some rel →
    Write g { g with relationships := g.relationships.insert id (rel.write key value) }
  | storeRelationship {type : String} {source target : NodeId}
      (properties : List (String × Value)) :
    type.isEmpty = false → g.hasNode source = true → g.hasNode target = true →
    Write g (g.takeRelId.2.storeRelationship
      (.create g.takeRelId.1 type source target properties))
  | strikeRelationship {id : RelId} {rel : Relationship} :
    g.relationship? id = some rel → Write g (g.strikeRelationship id rel)
  | strikeNode {id : NodeId} {node : Node} :
    g.node? id = some node → Write g (g.strikeNode id node)
  | declareIndex {name : IndexName} {indexes : IndexRegistry} :
    g.indexes.declare name g.nodes.values = .ok indexes → Write g { g with indexes }
  | dropIndex {name : IndexName} {indexes : IndexRegistry} :
    g.indexes.drop name = .ok indexes → Write g { g with indexes }

/-- The graph is reached by writes. -/
abbrev Writes : Graph → Graph → Prop := Relation.ReflTransGen Write

/-- A write that takes no node away. -/
structure SparingWrite (g g' : Graph) : Prop where
  write : Write g g'
  kept : ∀ id, g.hasNode id = true → g'.hasNode id = true

/-- At most one write, and none that takes a node away. -/
abbrev AtMostSparing : Graph → Graph → Prop := Relation.ReflGen SparingWrite

/-- Putting a node in the place of another takes none away. -/
theorem hasNode_of_insert {g g' : Graph} {id : NodeId} {node : Node}
    (nodes : g'.nodes = g.nodes.insert id node) (n : NodeId) (live : g.hasNode n = true) :
    g'.hasNode n = true := by
  rw [hasNode, nodes]
  exact OrderedMap.contains_insert_iff.2 (.inr live)

/-! ## Operations -/

theorem sparing_createNode (labels : List String) (properties : List (String × Value))
    (g : Graph) : AtMostSparing g (g.createNode labels properties).2 :=
  .single ⟨.createNode labels properties, hasNode_of_insert rfl⟩

theorem sparing_addLabel (id : NodeId) (label : String) (g : Graph) :
    AtMostSparing g (addLabel id label g).2 := by
  unfold addLabel
  split
  · exact .refl
  · rename_i node stored
    split
    · exact .refl
    · rename_i node' attached
      exact .single ⟨.storeLabel stored attached, hasNode_of_insert rfl⟩

theorem sparing_removeLabel (id : NodeId) (label : String) (g : Graph) :
    AtMostSparing g (removeLabel id label g).2 := by
  unfold removeLabel
  split
  · exact .refl
  · rename_i node stored
    split
    · exact .refl
    · rename_i node' detached
      exact .single ⟨.strikeLabel stored detached, hasNode_of_insert rfl⟩

theorem sparing_setProperty (target : EntityRef) (key : String) (value : Value) (g : Graph) :
    AtMostSparing g (setProperty target key value g).2 := by
  unfold setProperty
  split
  · split
    · exact .refl
    · rename_i id _ node stored
      exact .single ⟨.storeProperty key value stored, hasNode_of_insert rfl⟩
  · split
    · exact .refl
    · rename_i id _ rel stored
      exact .single ⟨.writeRelationship key value stored, fun _ live => live⟩

/-- A relationship of a type that is not empty between live nodes is created. -/
theorem createRelationship_eq_ok {g : Graph} {type : String} {source target : NodeId}
    (typed : type.isEmpty = false) (sourceLive : g.hasNode source = true)
    (targetLive : g.hasNode target = true) (properties : List (String × Value)) :
    createRelationship type source target properties g = (.ok g.takeRelId.1,
      g.takeRelId.2.storeRelationship (.create g.takeRelId.1 type source target properties)) := by
  unfold createRelationship
  rw [typed, sourceLive, targetLive]
  rfl

/-- A relationship is stored under the identity handed out next, as a write, or
nothing happens. -/
theorem createRelationship_stores (type : String) (source target : NodeId)
    (properties : List (String × Value)) (g : Graph) :
    let stored := g.takeRelId.2.storeRelationship
      (.create g.takeRelId.1 type source target properties)
    (∃ e, createRelationship type source target properties g = (.error e, g)) ∨
      Write g stored ∧ createRelationship type source target properties g =
        (.ok g.takeRelId.1, stored) := by
  cases untyped : type.isEmpty with
  | true => exact .inl ⟨_, if_pos untyped⟩
  | false =>
    cases sourceLive : g.hasNode source with
    | false =>
      refine .inl ⟨.nodeNotFound source, ?_⟩
      rw [createRelationship, untyped, sourceLive]
      rfl
    | true =>
      cases targetLive : g.hasNode target with
      | false =>
        refine .inl ⟨.nodeNotFound target, ?_⟩
        rw [createRelationship, untyped, sourceLive, targetLive]
        rfl
      | true =>
        exact .inr ⟨.storeRelationship properties untyped sourceLive targetLive,
          createRelationship_eq_ok untyped sourceLive targetLive properties⟩

theorem sparing_createRelationship (type : String) (source target : NodeId)
    (properties : List (String × Value)) (g : Graph) :
    AtMostSparing g (createRelationship type source target properties g).2 := by
  rcases createRelationship_stores type source target properties g with
    ⟨e, refused⟩ | ⟨write, made⟩
  · rw [refused]
  · rw [made]
    exact .single ⟨write, fun _ live => live⟩

theorem sparing_deleteRelationship (id : RelId) (g : Graph) :
    AtMostSparing g (deleteRelationship id g).2 := by
  unfold deleteRelationship
  cases stored : g.relationship? id with
  | none => exact .refl
  | some rel => exact .single ⟨.strikeRelationship stored, fun _ live => live⟩

theorem sparing_createIndex (name : IndexName) (g : Graph) :
    AtMostSparing g (createIndex name g).2 := by
  unfold createIndex
  cases declared : g.indexes.declare name g.nodes.values with
  | error e => exact .refl
  | ok indexes => exact .single ⟨.declareIndex declared, fun _ live => live⟩

theorem sparing_dropIndex (name : IndexName) (g : Graph) :
    AtMostSparing g (dropIndex name g).2 := by
  unfold dropIndex
  cases dropped : g.indexes.drop name with
  | error e => exact .refl
  | ok indexes => exact .single ⟨.dropIndex dropped, fun _ live => live⟩

/-- An operation that deletes no node makes at most one write, which takes no node
away. -/
theorem sparing_after (g : Graph) {operation : Operation}
    (other : ∀ id, operation ≠ .deleteNode id) : AtMostSparing g (g.after operation) := by
  cases operation with
  | createNode labels properties => exact sparing_createNode labels properties g
  | addLabel id label => exact sparing_addLabel id label g
  | removeLabel id label => exact sparing_removeLabel id label g
  | setProperty target key value => exact sparing_setProperty target key value g
  | deleteNode id => exact (other id rfl).elim
  | createRelationship type source target properties =>
    exact sparing_createRelationship type source target properties g
  | deleteRelationship id => exact sparing_deleteRelationship id g
  | createIndex name => exact sparing_createIndex name g
  | dropIndex name => exact sparing_dropIndex name g

/-- An operation deletes a node, changes nothing, or makes one write that takes no
node away. -/
theorem after_cases (g : Graph) (operation : Operation) :
    (∃ id, operation = .deleteNode id) ∨ g.after operation = g ∨
      SparingWrite g (g.after operation) := by
  by_cases deletes : ∃ id, operation = .deleteNode id
  · exact .inl deletes
  · have spared := sparing_after g fun id same => deletes ⟨id, same⟩
    generalize g.after operation = g' at spared
    cases spared with
    | refl => exact .inr (.inl rfl)
    | single step => exact .inr (.inr step)

/-- Deleting a node strikes relationships, one after the other, and then the node. -/
theorem along_deleteNode {R : Graph → Graph → Prop}
    (rels : ∀ {g id rel}, g.relationship? id = some rel → R g (g.strikeRelationship id rel))
    (nodes : ∀ {g id node}, g.node? id = some node → R g (g.strikeNode id node)) (id : NodeId) :
    RefusableAction.Along R (deleteNode id) := by
  have strikes : ∀ rel, RefusableAction.Along R (deleteRelationship rel) := by
    intro rel g
    unfold deleteRelationship
    cases stored : g.relationship? rel with
    | none => exact .refl
    | some rel => exact .single (rels stored)
  have drops : RefusableAction.Along R (dropNode id) := by
    intro g
    unfold dropNode
    cases stored : g.node? id with
    | none => exact .refl
    | some node => exact .single (nodes stored)
  refine .bind (.stay fun _ => rfl) fun g => ?_
  split
  · exact .bind (.forM strikes _) fun _ => .bind drops fun _ => .stay fun _ => rfl
  · exact .stay fun _ => rfl

theorem writes_deleteNode (id : NodeId) (g : Graph) : Writes g (deleteNode id g).2 :=
  along_deleteNode .strikeRelationship .strikeNode id g

/-- What an operation does to a graph, refused or not, is to make writes. -/
theorem writes_after (g : Graph) (operation : Operation) : Writes g (g.after operation) := by
  rcases g.after_cases operation with ⟨id, rfl⟩ | same | step
  · exact writes_deleteNode id g
  · rw [same]
  · exact .single step.write

/-! ## Reachable graphs -/

/-- What an empty graph has and every write keeps, every reachable graph has. -/
theorem Reachable.of_writes {P : Graph → Prop} (empty : ∀ config, P (.empty config))
    (write : ∀ {g g'}, P g → Write g g' → P g') {g : Graph} (reachable : g.Reachable) : P g := by
  induction reachable with
  | empty config => exact empty config
  | @after g operation _ ih =>
    have walked := writes_after g operation
    generalize g.after operation = last at walked
    induction walked with
    | refl => exact ih
    | tail _ step kept => exact write kept step

theorem Reachable.afterAll {g : Graph} (reachable : g.Reachable) (operations : List Operation) :
    (g.afterAll operations).Reachable := by
  induction operations generalizing g with
  | nil => exact reachable
  | cons operation rest ih => exact ih (reachable.after operation)

end Graph

end PropertyGraph
