import PropertyGraph.Proofs.Graph.Coherence

/-!
# Indexes along a history

Declaring and dropping indexes touches nothing but the indexes, and no other
operation looks at them. So a history stripped of its indexes is the history of
the other operations alone, and an index holds the same whenever it was
declared. What it holds is fixed by the live nodes: one entry for each that
carries the label and has the property.
-/

namespace PropertyGraph

open Std

/-! ## Hooks without indexes -/

namespace IndexRegistry

theorem foldl_empty {step : IndexRegistry → String → IndexRegistry}
    (none : ∀ label, step empty label = empty) (labels : List String) :
    labels.foldl step empty = empty := by
  induction labels with
  | nil => rfl
  | cons label rest ih => rw [List.foldl_cons, none label, ih]

theorem nodeCreated_empty (node : Node) : empty.nodeCreated node = empty :=
  foldl_empty (fun _ => rfl) _

theorem nodeDeleted_empty (node : Node) : empty.nodeDeleted node = empty :=
  foldl_empty (fun _ => rfl) _

theorem propertyChanged_empty (node : Node) (key : String) (old new : Option Value) :
    empty.propertyChanged node key old new = empty :=
  foldl_empty (fun _ => rfl) _

end IndexRegistry

namespace Graph

variable {g : Graph}

/-! ## The graph without its indexes -/

/-- The graph with no index declared and no alarm raised. -/
def bare (g : Graph) : Graph := { g with indexes := .empty, alarms := [] }

/-- Auditing a graph without indexes changes nothing. -/
theorem bare_eq_audited {g h : Graph} (undeclared : h.indexes = .empty) (quiet : h.alarms = [])
    (same : g.bare = h.bare) : g.bare = h.audited := by
  have passed : h.selfCheck = .ok () := by
    rw [selfCheck, undeclared, show IndexRegistry.empty.isEmpty = true from rfl, Bool.not_true,
      Bool.and_false]
    rfl
  rw [audited, passed, same, bare, quiet, undeclared]

theorem bare_storeNode (node : Node) : (g.storeNode node).bare = g.bare.storeNode node := by
  rw [storeNode, storeNode]
  exact bare_eq_audited (IndexRegistry.nodeCreated_empty node) rfl rfl

theorem bare_storeLabel (id : NodeId) (node : Node) (label : String) :
    (g.storeLabel id node label).bare = g.bare.storeLabel id node label := by
  rw [storeLabel, storeLabel]
  exact bare_eq_audited rfl rfl rfl

theorem bare_strikeLabel (id : NodeId) (node : Node) (label : String) :
    (g.strikeLabel id node label).bare = g.bare.strikeLabel id node label := by
  rw [strikeLabel, strikeLabel]
  exact bare_eq_audited rfl rfl rfl

theorem bare_storeProperty (id : NodeId) (node : Node) (key : String) (old : Option Value) :
    (g.storeProperty id node key old).bare = g.bare.storeProperty id node key old := by
  rw [storeProperty, storeProperty]
  exact bare_eq_audited (IndexRegistry.propertyChanged_empty node key old _) rfl rfl

theorem bare_strikeNode (id : NodeId) (node : Node) :
    (g.strikeNode id node).bare = g.bare.strikeNode id node := by
  rw [strikeNode, strikeNode]
  exact bare_eq_audited (IndexRegistry.nodeDeleted_empty node) rfl rfl

/-! ## Operations without indexes -/

theorem overlooks_addLabel (id : NodeId) (label : String) :
    RefusableAction.Overlooks bare (addLabel id label) := by
  intro g
  unfold addLabel
  rw [show g.bare.node? id = g.node? id from rfl]
  cases g.node? id with
  | none => rfl
  | some node =>
    dsimp only
    cases node.attach? label with
    | none => rfl
    | some node' => rw [bare_storeLabel]

theorem overlooks_removeLabel (id : NodeId) (label : String) :
    RefusableAction.Overlooks bare (removeLabel id label) := by
  intro g
  unfold removeLabel
  rw [show g.bare.node? id = g.node? id from rfl]
  cases g.node? id with
  | none => rfl
  | some node =>
    dsimp only
    cases node.detach? label with
    | none => rfl
    | some node' => rw [bare_strikeLabel]

theorem overlooks_setProperty (target : EntityRef) (key : String) (value : Value) :
    RefusableAction.Overlooks bare (setProperty target key value) := by
  intro g
  unfold setProperty
  cases target with
  | node id =>
    dsimp only
    rw [show g.bare.node? id = g.node? id from rfl]
    cases g.node? id with
    | none => rfl
    | some node => rw [bare_storeProperty]
  | relationship id =>
    dsimp only
    rw [show g.bare.relationship? id = g.relationship? id from rfl]
    cases g.relationship? id <;> rfl

theorem overlooks_createRelationship (type : String) (source target : NodeId)
    (properties : List (String × Value)) :
    RefusableAction.Overlooks bare (createRelationship type source target properties) := by
  intro g
  unfold createRelationship
  rw [show g.bare.hasNode = g.hasNode from rfl]
  split
  · rfl
  split
  · rfl
  split
  · rfl
  · rfl

theorem overlooks_deleteRelationship (id : RelId) :
    RefusableAction.Overlooks bare (deleteRelationship id) := by
  intro g
  unfold deleteRelationship
  rw [show g.bare.relationship? id = g.relationship? id from rfl]
  cases g.relationship? id <;> rfl

theorem overlooks_dropNode (id : NodeId) : RefusableAction.Overlooks bare (dropNode id) := by
  intro g
  unfold dropNode
  rw [show g.bare.node? id = g.node? id from rfl]
  cases g.node? id with
  | none => rfl
  | some node => rw [bare_strikeNode]

theorem overlooks_deleteNode (id : NodeId) : RefusableAction.Overlooks bare (deleteNode id) := by
  intro g
  have got : ∀ g : Graph, (get : Action Graph) g = (.ok g, g) := fun _ => rfl
  rw [deleteNode, RefusableAction.bind_of_ok (got g), RefusableAction.bind_of_ok (got g.bare),
    show g.bare.hasNode = g.hasNode from rfl]
  split
  · exact RefusableAction.Overlooks.bind
      (.forM (fun rel => overlooks_deleteRelationship rel) _)
      (fun _ => .bind (overlooks_dropNode id) fun _ => .pure _) g
  · rfl

/-! ## Histories without their indexes -/

/-- An operation on indexes touches nothing else. -/
theorem bare_after_of_isIndexing {operation : Operation} (indexing : operation.isIndexing = true) :
    (g.after operation).bare = g.bare := by
  cases operation with
  | createIndex name =>
    show (createIndex name g).2.bare = g.bare
    unfold createIndex
    split <;> rfl
  | dropIndex name =>
    show (dropIndex name g).2.bare = g.bare
    unfold dropIndex
    split <;> rfl
  | _ => cases indexing

/-- No other operation looks at the indexes. -/
theorem bare_after {operation : Operation} (ordinary : operation.isIndexing = false) :
    (g.after operation).bare = g.bare.after operation := by
  cases operation with
  | createNode labels properties => exact bare_storeNode _
  | addLabel id label => exact (congrArg Prod.snd (overlooks_addLabel id label g)).symm
  | removeLabel id label => exact (congrArg Prod.snd (overlooks_removeLabel id label g)).symm
  | setProperty target key value =>
    exact (congrArg Prod.snd (overlooks_setProperty target key value g)).symm
  | deleteNode id => exact (congrArg Prod.snd (overlooks_deleteNode id g)).symm
  | createRelationship type source target properties =>
    exact (congrArg Prod.snd (overlooks_createRelationship type source target properties g)).symm
  | deleteRelationship id => exact (congrArg Prod.snd (overlooks_deleteRelationship id g)).symm
  | createIndex _ => cases ordinary
  | dropIndex _ => cases ordinary

/-- A history without its indexes is the history of the operations that are not
on indexes. -/
theorem bare_afterAll (g : Graph) (operations : List Operation) :
    (g.afterAll operations).bare =
      g.bare.afterAll (operations.filter fun operation => !operation.isIndexing) := by
  induction operations generalizing g with
  | nil => rfl
  | cons operation rest ih =>
    have later := ih (g.after operation)
    cases indexing : operation.isIndexing with
    | true =>
      rw [List.filter_cons_of_neg (by simp [indexing])]
      rw [bare_after_of_isIndexing indexing] at later
      exact later
    | false =>
      rw [List.filter_cons_of_pos (by simp [indexing])]
      rw [bare_after indexing] at later
      exact later

/-- Histories that differ only in operations on indexes store the same nodes. -/
theorem node?_afterAll_eq (g : Graph) {operations operations' : List Operation}
    (alike : operations.filter (fun operation => !operation.isIndexing) =
      operations'.filter fun operation => !operation.isIndexing) :
    (g.afterAll operations).node? = (g.afterAll operations').node? := by
  have same : (g.afterAll operations).bare = (g.afterAll operations').bare := by
    rw [bare_afterAll, bare_afterAll, alike]
  exact congrArg (fun g => g.nodes.get?) same

/-! ## What an index holds -/

/-- An index holds one entry for each live node that carries the label and has
the property, filed under a value equal to the node's own, and no other entry. -/
structure HoldsExactly (g : Graph) (name : IndexName) (index : PropertyIndex) : Prop where
  once : index.toList.Pairwise fun a b => a.2 ≠ b.2
  sound : ∀ key id, (key, id) ∈ index.toList → ∃ node own, g.node? id = some node ∧
    node.hasLabel name.label = true ∧ node.get? name.property = some own ∧ compare key own = .eq
  complete : ∀ id node own, g.node? id = some node → node.hasLabel name.label = true →
    node.get? name.property = some own → ∃ key, (key, id) ∈ index.toList ∧ compare key own = .eq
  size : index.size = (g.nodes.values.filter fun node =>
    node.hasLabel name.label && (node.get? name.property).isSome).length

theorem population_iff {name : IndexName} {id : NodeId} {own : Value} :
    IndexRegistry.population g.node? name id = some own ↔ ∃ node, g.node? id = some node ∧
      node.hasLabel name.label = true ∧ node.get? name.property = some own := by
  rw [IndexRegistry.population, Option.bind_eq_some_iff]
  simp only [IndexName.filed?, Option.ite_none_right_eq_some]

theorem Coherent.holdsExactly (coherent : g.Coherent) {name : IndexName} {index : PropertyIndex}
    (declared : g.indexes.get? name = some index) : g.HoldsExactly name index where
  once := (coherent.indexed name index declared).distinct
  sound key id mem := by
    obtain ⟨own, filed, equal⟩ := (coherent.indexed name index declared).of_mem_toList mem
    obtain ⟨node, found, carried, has⟩ := population_iff.1 filed
    exact ⟨node, own, found, carried, has, OrientedCmp.eq_symm equal⟩
  complete id node own found carried has :=
    (coherent.indexed name index declared).exists_mem_toList
      (population_iff.2 ⟨node, found, carried, has⟩)
  size := by
    rw [IndexRegistry.size_eq_length_filter coherent.stored.enumerates
      (coherent.indexed name index declared)]
    congr 2
    funext node
    rw [IndexName.filed?]
    cases node.hasLabel name.label <;> simp

/-- After any history, each declared index holds exactly what it has to, whenever
it was declared: a history that differs only in what it does to indexes leaves
the same entries, up to equal values. No check of the indexes ever fails. -/
theorem indexes_hold_exactly (config : GraphConfig) (operations : List Operation) :
    let g := (Graph.empty config).afterAll operations
    (∀ name index, g.indexes.get? name = some index → g.HoldsExactly name index) ∧
      (∀ operations', operations'.filter (fun operation => !operation.isIndexing) =
          operations.filter (fun operation => !operation.isIndexing) →
        ∀ name index index', g.indexes.get? name = some index →
          ((Graph.empty config).afterAll operations').indexes.get? name = some index' →
          List.Forall₂ (fun a b => compare a.1 b.1 = .eq ∧ a.2 = b.2)
            index.toList index'.toList) ∧
      g.verifyIndexes = .ok () ∧ g.selfCheck = .ok () ∧ g.alarms = [] := by
  have coherent := ((Reachable.empty config).afterAll operations).coherent
  refine ⟨fun name index declared => coherent.holdsExactly declared, ?_,
    coherent.indexed.verifyIndexes_eq_ok coherent.stored,
    coherent.indexed.selfCheck_eq_ok coherent.stored, coherent.quiet⟩
  intro operations' alike name index index' declared declared'
  have coherent' := ((Reachable.empty config).afterAll operations').coherent
  have mirrors' := coherent'.indexed name index' declared'
  rw [node?_afterAll_eq _ alike] at mirrors'
  exact (coherent.indexed name index declared).agree mirrors'

/-- Declared before or after the nodes are there, an index comes to hold the same. -/
theorem indexes_hold_exactly_declared_late :
    let name : IndexName := ⟨"Person", "age"⟩
    let early : List Operation := [.createIndex name, .createNode ["Person"] [("age", .int 30)],
      .createNode ["Person"] [], .setProperty (.node ⟨1⟩) "age" (.int 31)]
    let late : List Operation := [.createNode ["Person"] [("age", .int 30)],
      .createNode ["Person"] [], .setProperty (.node ⟨1⟩) "age" (.int 31), .createIndex name]
    let g := (Graph.empty .standard).afterAll early
    ∃ index index', g.indexes.get? name = some index ∧
      ((Graph.empty .standard).afterAll late).indexes.get? name = some index' ∧
      g.HoldsExactly name index ∧
      List.Forall₂ (fun a b => compare a.1 b.1 = .eq ∧ a.2 = b.2) index.toList index'.toList := by
  intro name early late g
  have declared : ∃ index, g.indexes.get? name = some index :=
    Option.isSome_iff_exists.1 (by decide)
  have declared' : ∃ index,
      ((Graph.empty .standard).afterAll late).indexes.get? name = some index :=
    Option.isSome_iff_exists.1 (by decide)
  obtain ⟨index, declared⟩ := declared
  obtain ⟨index', declared'⟩ := declared'
  have alike : late.filter (fun operation => !operation.isIndexing) =
      early.filter fun operation => !operation.isIndexing := by decide
  obtain ⟨exactly, agree, _⟩ := indexes_hold_exactly .standard early
  exact ⟨index, index', declared, declared', exactly name index declared,
    agree late alike name index index' declared declared'⟩

end Graph

end PropertyGraph
