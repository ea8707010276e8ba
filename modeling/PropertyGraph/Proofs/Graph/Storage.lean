import PropertyGraph.Proofs.Entity.Node
import PropertyGraph.Proofs.Graph.Writes

/-!
# Stored entities and their identities

Every entity is stored under its own identity and is proper: labels none twice,
no null property, a relationship of a type that is not empty. The supply of
identities accounts for the live ones: none of them is still to be handed out,
and what was given back is free and waits once. So an identity that is handed
out is never live, and no write puts an entity in the place of another.
-/

namespace PropertyGraph

open Std

/-! ## The supply of identities -/

/-- Every live number was handed out, and the numbers given back are free, each
waiting once. -/
structure IdSupply.Accounts (s : IdSupply) (live : Nat → Prop) : Prop where
  below : ∀ number, live number → number < s.fresh
  returnedBelow : ∀ number ∈ s.returned, number < s.fresh
  returnedFree : ∀ number ∈ s.returned, ¬live number
  nodup : s.returned.Nodup

namespace IdSupply

variable {s : IdSupply} {live live' : Nat → Prop}

theorem Accounts.full (none : ∀ number, ¬live number) : full.Accounts live where
  below number alive := (none number alive).elim
  returnedBelow _ mem := by cases mem
  returnedFree _ mem := by cases mem
  nodup := .nil

/-- Fewer live numbers are accounted for as well. -/
theorem Accounts.mono (accounts : s.Accounts live) (fewer : ∀ number, live' number → live number) :
    s.Accounts live' where
  below number alive := accounts.below number (fewer number alive)
  returnedBelow := accounts.returnedBelow
  returnedFree number mem alive := accounts.returnedFree number mem (fewer number alive)
  nodup := accounts.nodup

/-- A number that is handed out is not live. -/
theorem Accounts.take_free (accounts : s.Accounts live) : ¬live s.take.1 := by
  unfold take
  split
  · rename_i number returned waiting
    exact accounts.returnedFree number (waiting ▸ List.mem_cons_self)
  · exact fun alive => Nat.lt_irrefl _ (accounts.below s.fresh alive)

/-- A number that is handed out may become live. -/
theorem Accounts.take (accounts : s.Accounts live)
    (more : ∀ number, live' number → number = s.take.1 ∨ live number) :
    s.take.2.Accounts live' := by
  unfold IdSupply.take at more ⊢
  cases waiting : s.returned with
  | nil =>
    rw [waiting] at more
    refine ⟨fun number alive => ?_, fun _ mem => by simp at mem,
      fun _ mem => by simp at mem, by simp⟩
    rcases more number alive with rfl | alive
    · exact Nat.lt_succ_self _
    · exact Nat.lt_succ_of_lt (accounts.below number alive)
  | cons first rest =>
    rw [waiting] at more
    have head : first ∈ s.returned := waiting ▸ List.mem_cons_self
    have mem : ∀ {number}, number ∈ rest → number ∈ s.returned := fun later =>
      waiting ▸ List.mem_cons_of_mem _ later
    have nodup := accounts.nodup
    rw [waiting, List.nodup_cons] at nodup
    refine ⟨fun number alive => ?_, fun number later => accounts.returnedBelow number (mem later),
      fun number later alive => ?_, nodup.2⟩
    · rcases more number alive with rfl | alive
      · exact accounts.returnedBelow _ head
      · exact accounts.below number alive
    · rcases more number alive with rfl | alive
      · exact nodup.1 later
      · exact accounts.returnedFree number (mem later) alive

/-- A live number may be given back once it is no longer live. -/
theorem Accounts.giveBack (accounts : s.Accounts live) {number : Nat} (alive : live number)
    (fewer : ∀ n, live' n → n ≠ number ∧ live n) : (s.giveBack number).Accounts live' where
  below n alive' := accounts.below n (fewer n alive').2
  returnedBelow n mem := by
    rcases List.mem_cons.1 mem with rfl | mem
    · exact accounts.below n alive
    · exact accounts.returnedBelow n mem
  returnedFree n mem alive' := by
    rcases List.mem_cons.1 mem with rfl | mem
    · exact (fewer n alive').1 rfl
    · exact accounts.returnedFree n mem (fewer n alive').2
  nodup := List.nodup_cons.2
    ⟨fun mem => accounts.returnedFree number mem alive, accounts.nodup⟩

end IdSupply

/-! ## Proper relationships -/

/-- What holds of a relationship stored under an identity. -/
structure Relationship.Proper (id : RelId) (rel : Relationship) : Prop where
  own : rel.id = id
  typed : rel.type.isEmpty = false
  noNull : Properties.NoNull rel.properties

namespace Graph

/-! ## Storage -/

/-- Stored entities are proper, and the supplies account for the live ones. -/
structure Stored (g : Graph) : Prop where
  nodes : g.nodes.Each Node.Proper
  relationships : g.relationships.Each Relationship.Proper
  nodeIds : g.nodeIds.Accounts fun number => g.hasNode ⟨number⟩ = true
  relIds : g.relIds.Accounts fun number => g.hasRelationship ⟨number⟩ = true

variable {g g' : Graph}

theorem hasNode_iff {id : NodeId} : g.hasNode id = true ↔ ∃ node, g.node? id = some node :=
  OrderedMap.contains_eq_true_iff

theorem hasRelationship_iff {id : RelId} :
    g.hasRelationship id = true ↔ ∃ rel, g.relationship? id = some rel :=
  OrderedMap.contains_eq_true_iff

/-- The identity handed out next belongs to no live node. -/
theorem Stored.takeNodeId_free (stored : g.Stored) : g.node? g.takeNodeId.1 = none := by
  cases found : g.node? g.takeNodeId.1 with
  | none => rfl
  | some node => exact (stored.nodeIds.take_free (hasNode_iff.2 ⟨node, found⟩)).elim

/-- The identity handed out next belongs to no live relationship. -/
theorem Stored.takeRelId_free (stored : g.Stored) : g.relationship? g.takeRelId.1 = none := by
  cases found : g.relationship? g.takeRelId.1 with
  | none => rfl
  | some rel => exact (stored.relIds.take_free (hasRelationship_iff.2 ⟨rel, found⟩)).elim

theorem Stored.empty (config : GraphConfig) : (Graph.empty config).Stored where
  nodes := .empty
  relationships := .empty
  nodeIds := .full fun _ alive => by cases alive
  relIds := .full fun _ alive => by cases alive

/-- Putting a node in the place of itself leaves the same nodes live. -/
theorem live_insert {nodes : OrderedMap NodeId Node} {id : NodeId} {node node' : Node}
    (found : nodes.get? id = some node) (number : Nat) :
    (nodes.insert id node').contains ⟨number⟩ = true → nodes.contains ⟨number⟩ = true := by
  rw [OrderedMap.contains_insert_iff]
  intro either
  rcases either with rfl | alive
  · exact OrderedMap.contains_eq_true_iff.2 ⟨node, found⟩
  · exact alive

theorem Stored.createNode (stored : g.Stored) (labels : List String)
    (properties : List (String × Value)) : (g.createNode labels properties).2.Stored where
  nodes := stored.nodes.insert (.create _ labels properties)
  relationships := stored.relationships
  nodeIds := stored.nodeIds.take fun number alive => by
    rcases OrderedMap.contains_insert_iff.1 alive with same | alive
    · exact .inl (congrArg NodeId.number same)
    · exact .inr alive
  relIds := stored.relIds

theorem Stored.storeRelationship (stored : g.Stored) {type : String} (source target : NodeId)
    (properties : List (String × Value)) (typed : type.isEmpty = false) :
    (g.takeRelId.2.storeRelationship
      (.create g.takeRelId.1 type source target properties)).Stored where
  nodes := stored.nodes
  relationships := stored.relationships.insert ⟨rfl, typed, .ofPairs properties⟩
  nodeIds := stored.nodeIds
  relIds := stored.relIds.take fun number alive => by
    rcases OrderedMap.contains_insert_iff.1 alive with same | alive
    · exact .inl (congrArg RelId.number same)
    · exact .inr alive

/-- Giving the number of a deleted entity back, or keeping it, accounts for the
entities that are left. -/
theorem accounts_giveBack {s : IdSupply} {live live' : Nat → Prop} (accounts : s.Accounts live)
    {number : Nat} (alive : live number) (fewer : ∀ n, live' n → n ≠ number ∧ live n) :
    (g.giveBack s number).Accounts live' := by
  unfold giveBack
  split
  · exact accounts.giveBack alive fewer
  · exact accounts.mono fun n alive' => (fewer n alive').2

theorem Stored.strikeRelationship (stored : g.Stored) {id : RelId} {rel : Relationship}
    (found : g.relationship? id = some rel) : (g.strikeRelationship id rel).Stored where
  nodes := stored.nodes
  relationships := stored.relationships.erase id
  nodeIds := stored.nodeIds
  relIds := accounts_giveBack stored.relIds (hasRelationship_iff.2 ⟨rel, found⟩) fun n alive => by
    obtain ⟨other, alive⟩ := OrderedMap.contains_erase_iff.1 alive
    exact ⟨fun same => other (congrArg RelId.mk same), alive⟩

theorem Stored.strikeNode (stored : g.Stored) {id : NodeId} {node : Node}
    (found : g.node? id = some node) : (g.strikeNode id node).Stored where
  nodes := stored.nodes.erase id
  relationships := stored.relationships
  nodeIds := accounts_giveBack stored.nodeIds (hasNode_iff.2 ⟨node, found⟩) fun n alive => by
    obtain ⟨other, alive⟩ := OrderedMap.contains_erase_iff.1 alive
    exact ⟨fun same => other (congrArg NodeId.mk same), alive⟩
  relIds := stored.relIds

/-- What is stored stays proper and accounted for under every write. -/
theorem Stored.write (stored : g.Stored) (step : Write g g') : g'.Stored := by
  cases step with
  | createNode labels properties => exact stored.createNode labels properties
  | @storeLabel id _ _ _ found attached =>
    exact ⟨stored.nodes.insert ((stored.nodes id _ found).attach attached),
      stored.relationships, stored.nodeIds.mono (live_insert found), stored.relIds⟩
  | @strikeLabel id _ _ _ found detached =>
    exact ⟨stored.nodes.insert ((stored.nodes id _ found).detach detached),
      stored.relationships, stored.nodeIds.mono (live_insert found), stored.relIds⟩
  | @storeProperty id _ key value found =>
    exact ⟨stored.nodes.insert ((stored.nodes id _ found).write key value),
      stored.relationships, stored.nodeIds.mono (live_insert found), stored.relIds⟩
  | @writeRelationship id rel key value found =>
    have proper := stored.relationships id rel found
    refine ⟨stored.nodes,
      stored.relationships.insert ⟨proper.own, proper.typed, proper.noNull.write key value⟩,
      stored.nodeIds, stored.relIds.mono fun number alive => ?_⟩
    rcases OrderedMap.contains_insert_iff.1 alive with rfl | alive
    · exact hasRelationship_iff.2 ⟨rel, found⟩
    · exact alive
  | storeRelationship properties typed _ _ =>
    exact stored.storeRelationship _ _ properties typed
  | strikeRelationship found => exact stored.strikeRelationship found
  | strikeNode found => exact stored.strikeNode found
  | declareIndex _ => exact ⟨stored.nodes, stored.relationships, stored.nodeIds, stored.relIds⟩
  | dropIndex _ => exact ⟨stored.nodes, stored.relationships, stored.nodeIds, stored.relIds⟩

theorem Stored.writes (stored : g.Stored) (walked : Writes g g') : g'.Stored := by
  induction walked with
  | refl => exact stored
  | tail _ step ih => exact ih.write step

/-! ## Entities created -/

theorem node?_createNode (g : Graph) (labels : List String) (properties : List (String × Value)) :
    (g.createNode labels properties).2.node? g.takeNodeId.1 =
      some (.create g.takeNodeId.1 labels properties) :=
  OrderedMap.get?_insert_self _ _ _

theorem hasNode_createNode_iff {labels : List String} {properties : List (String × Value)}
    {id : NodeId} : (g.createNode labels properties).2.hasNode id = true ↔
      id = g.takeNodeId.1 ∨ g.hasNode id = true :=
  OrderedMap.contains_insert_iff

theorem node?_createNode_of_ne {labels : List String} {properties : List (String × Value)}
    {id : NodeId} (other : id ≠ g.takeNodeId.1) :
    (g.createNode labels properties).2.node? id = g.node? id :=
  OrderedMap.get?_insert_of_ne _ _ other

/-- Creating a node leaves the others as they are. -/
theorem Stored.kept_createNode (stored : g.Stored) {labels : List String}
    {properties : List (String × Value)} {id : NodeId} {node : Node}
    (found : g.node? id = some node) :
    (g.createNode labels properties).2.node? id = some node := by
  have other : id ≠ g.takeNodeId.1 := by
    intro same
    subst same
    rw [stored.takeNodeId_free] at found
    cases found
  exact (node?_createNode_of_ne other).trans found

theorem Stored.nodeCount_createNode (stored : g.Stored) (labels : List String)
    (properties : List (String × Value)) :
    (g.createNode labels properties).2.nodeCount = g.nodeCount + 1 := by
  have free : g.nodes.contains g.takeNodeId.1 = false :=
    Option.isSome_eq_false_iff.2 (Option.isNone_iff_eq_none.2 stored.takeNodeId_free)
  refine (OrderedMap.size_insert g.nodes g.takeNodeId.1 _).trans ?_
  rw [free]
  rfl

theorem relationship?_storeRelationship (g : Graph) (rel : Relationship) :
    (g.storeRelationship rel).relationship? rel.id = some rel :=
  OrderedMap.get?_insert_self _ _ _

theorem relationship?_storeRelationship_of_ne {rel : Relationship} {id : RelId}
    (other : id ≠ rel.id) : (g.storeRelationship rel).relationship? id = g.relationship? id :=
  OrderedMap.get?_insert_of_ne _ _ other

/-- Storing a relationship under an identity that is free leaves the others as
they are. -/
theorem kept_storeRelationship {rel : Relationship} (free : g.relationship? rel.id = none)
    {id : RelId} {other : Relationship} (found : g.relationship? id = some other) :
    (g.storeRelationship rel).relationship? id = some other := by
  have apart : id ≠ rel.id := by
    intro same
    subst same
    rw [free] at found
    cases found
  exact (relationship?_storeRelationship_of_ne apart).trans found

theorem relationshipCount_storeRelationship {rel : Relationship}
    (free : g.relationship? rel.id = none) :
    (g.storeRelationship rel).relationshipCount = g.relationshipCount + 1 := by
  have absent : g.relationships.contains rel.id = false :=
    Option.isSome_eq_false_iff.2 (Option.isNone_iff_eq_none.2 free)
  refine (OrderedMap.size_insert g.relationships rel.id rel).trans ?_
  rw [absent]
  rfl

end Graph

end PropertyGraph
