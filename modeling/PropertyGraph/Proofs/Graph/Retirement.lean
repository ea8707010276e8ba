import PropertyGraph.Proofs.Graph.Coherence
import PropertyGraph.Proofs.Graph.Deletion

/-!
# Which entities are live

Writing properties and labels neither brings an entity nor takes one away,
creating brings one and deleting takes away what was asked for, together with the
relationships of a node. An identity of a deleted entity comes back only from a
supply that numbers are given back to: without recycling, an entity that was live
once and is not any more stays away, whatever is written.
-/

namespace PropertyGraph

open Std

/-! ## Numbers handed out -/

namespace IdSupply

/-- The number was handed out by a supply that none was given back to. -/
structure Past (s : IdSupply) (number : Nat) : Prop where
  kept : s.returned = []
  below : number < s.fresh

variable {s : IdSupply} {number : Nat}

theorem take_of_kept (kept : s.returned = []) :
    s.take = (s.fresh, { s with fresh := s.fresh + 1 }) := by
  rw [take, kept]

theorem Past.take_ne (past : s.Past number) : number ≠ s.take.1 := by
  rw [take_of_kept past.kept]
  exact Nat.ne_of_lt past.below

theorem Past.take (past : s.Past number) : s.take.2.Past number := by
  rw [take_of_kept past.kept]
  exact ⟨past.kept, Nat.lt_succ_of_lt past.below⟩

end IdSupply

/-- The number of an entity among those of its kind. -/
def EntityRef.number : EntityRef → Nat
  | .node id => id.number
  | .relationship id => id.number

namespace Graph

variable {g g' : Graph} {e : EntityRef}

/-! ## What operations do to the live entities -/

/-- The same entities are live. -/
def SameLive (g g' : Graph) : Prop := ∀ e, g'.contains e = g.contains e

theorem live_of_sameLive (live : g'.contains e = true) (same : SameLive g g') :
    g.contains e = true := by
  rw [← same e]
  exact live

/-- Putting a node in the place of one that was found leaves the same entities live. -/
theorem sameLive_of_insertNode {id : NodeId} {node node' : Node} (found : g.node? id = some node)
    (nodes : g'.nodes = g.nodes.insert id node')
    (relationships : g'.relationships = g.relationships) : SameLive g g' := by
  intro e
  cases e with
  | relationship n => exact congrArg (fun rels => OrderedMap.contains rels n) relationships
  | node n =>
    show g'.nodes.contains n = g.nodes.contains n
    rw [nodes, Bool.eq_iff_iff, OrderedMap.contains_insert_iff]
    refine ⟨fun either => either.elim (fun same => ?_) (fun live => live), .inr⟩
    exact same ▸ hasNode_iff.2 ⟨node, found⟩

/-- Putting a relationship in the place of one that was found leaves the same
entities live. -/
theorem sameLive_of_insertRelationship {id : RelId} {rel rel' : Relationship}
    (found : g.relationship? id = some rel) (nodes : g'.nodes = g.nodes)
    (relationships : g'.relationships = g.relationships.insert id rel') : SameLive g g' := by
  intro e
  cases e with
  | node n => exact congrArg (fun stored => OrderedMap.contains stored n) nodes
  | relationship n =>
    show g'.relationships.contains n = g.relationships.contains n
    rw [relationships, Bool.eq_iff_iff, OrderedMap.contains_insert_iff]
    refine ⟨fun either => either.elim (fun same => ?_) (fun live => live), .inr⟩
    exact same ▸ hasRelationship_iff.2 ⟨rel, found⟩

theorem sameLive_setProperty (target : EntityRef) (key : String) (value : Value) (g : Graph) :
    SameLive g (setProperty target key value g).2 := by
  cases target with
  | node id =>
    dsimp only [setProperty]
    cases found : g.node? id with
    | none => exact fun _ => rfl
    | some node => exact sameLive_of_insertNode found rfl rfl
  | relationship id =>
    dsimp only [setProperty]
    cases found : g.relationship? id with
    | none => exact fun _ => rfl
    | some rel => exact sameLive_of_insertRelationship found rfl rfl

theorem sameLive_addLabel (id : NodeId) (label : String) (g : Graph) :
    SameLive g (addLabel id label g).2 := by
  unfold addLabel
  cases found : g.node? id with
  | none => exact fun _ => rfl
  | some node =>
    dsimp only
    cases node.attach? label with
    | none => exact fun _ => rfl
    | some node' => exact sameLive_of_insertNode found rfl rfl

theorem sameLive_removeLabel (id : NodeId) (label : String) (g : Graph) :
    SameLive g (removeLabel id label g).2 := by
  unfold removeLabel
  cases found : g.node? id with
  | none => exact fun _ => rfl
  | some node =>
    dsimp only
    cases node.detach? label with
    | none => exact fun _ => rfl
    | some node' => exact sameLive_of_insertNode found rfl rfl

theorem contains_createNode_iff {labels : List String} {properties : List (String × Value)} :
    (g.createNode labels properties).2.contains e = true ↔
      e = .node g.takeNodeId.1 ∨ g.contains e = true := by
  cases e with
  | node id =>
    rw [EntityRef.node.injEq]
    exact hasNode_createNode_iff
  | relationship id => simp [contains, createNode, storeNode, audited, takeNodeId, hasRelationship]

theorem contains_storeRelationship_iff {rel : Relationship} :
    (g.storeRelationship rel).contains e = true ↔
      e = .relationship rel.id ∨ g.contains e = true := by
  cases e with
  | node n => exact ⟨.inr, fun either => either.elim (fun other => by cases other) id⟩
  | relationship n =>
    rw [EntityRef.relationship.injEq]
    exact OrderedMap.contains_insert_iff

theorem contains_strikeRelationship_iff {id : RelId} {rel : Relationship} :
    (g.strikeRelationship id rel).contains e = true ↔
      e ≠ .relationship id ∧ g.contains e = true := by
  cases e with
  | node n => simp [contains, strikeRelationship, hasNode]
  | relationship n =>
    rw [ne_eq, EntityRef.relationship.injEq]
    exact OrderedMap.contains_erase_iff

theorem contains_strikeNode_iff {id : NodeId} {node : Node} :
    (g.strikeNode id node).contains e = true ↔ e ≠ .node id ∧ g.contains e = true := by
  cases e with
  | node n =>
    rw [ne_eq, EntityRef.node.injEq]
    exact OrderedMap.contains_erase_iff
  | relationship n => simp [contains, strikeNode, audited, hasRelationship]

/-- A relationship is created, and nothing else is new, or nothing happens. -/
theorem createRelationship_outcome (type : String) (source target : NodeId)
    (properties : List (String × Value)) (g : Graph) :
    (∃ cause, createRelationship type source target properties g = (.error cause, g)) ∨
      ∃ id g', createRelationship type source target properties g = (.ok id, g') ∧
        ∀ e, g'.contains e = true ↔ e = .relationship id ∨ g.contains e = true := by
  rcases createRelationship_stores type source target properties g with refused | ⟨-, made⟩
  · exact .inl refused
  · exact .inr ⟨_, _, made, fun _ => contains_storeRelationship_iff⟩

/-- A node that was deleted is gone with its relationships, which were live; the
others are as before. If it was not live, nothing happens. -/
theorem Linked.deleteNode_outcome (linked : g.Linked) (id : NodeId) :
    (∃ cause, deleteNode id g = (.error cause, g)) ∨
      ∃ rels g', deleteNode id g = (.ok rels, g') ∧
        (∀ e, e = .node id ∨ e ∈ rels.map .relationship → g.contains e = true) ∧
        ∀ e, g'.contains e = true ↔
          ¬(e = .node id ∨ e ∈ rels.map .relationship) ∧ g.contains e = true := by
  cases live : g.hasNode id with
  | false => exact .inl ⟨_, deleteNode_eq_error live⟩
  | true =>
    obtain ⟨g', deleted, deletes⟩ := linked.deleteNode_eq_ok live
    refine .inr ⟨_, g', deleted, fun e gone => ?_, fun e => ?_⟩
    · rcases gone with rfl | mem
      · exact live
      · obtain ⟨rel, listed, rfl⟩ := List.mem_map.1 mem
        obtain ⟨stored, found, -⟩ := linked.mem_edgesInvolving_iff.1 listed
        exact hasRelationship_iff.2 ⟨stored, found⟩
    · cases e with
      | node n =>
        rw [contains, contains, hasNode_iff, hasNode_iff, deletes.nodes]
        by_cases same : n = id <;> simp [same]
      | relationship n =>
        rw [contains, contains, hasRelationship_iff, hasRelationship_iff, deletes.relationships]
        by_cases mem : n ∈ g.adjacency.edgesInvolving id <;> simp [mem]

/-- A relationship that was deleted is gone and the others are as before. If it was
not live, nothing happens. -/
theorem deleteRelationship_outcome (id : RelId) (g : Graph) :
    (∃ cause, deleteRelationship id g = (.error cause, g)) ∨
      ∃ g', deleteRelationship id g = (.ok (), g') ∧ g.hasRelationship id = true ∧
        ∀ e, g'.contains e = true ↔ e ≠ .relationship id ∧ g.contains e = true := by
  cases found : g.relationship? id with
  | none => exact .inl ⟨_, deleteRelationship_eq_error found⟩
  | some rel =>
    exact .inr ⟨_, deleteRelationship_eq_ok found, hasRelationship_iff.2 ⟨rel, found⟩,
      fun _ => contains_strikeRelationship_iff⟩

/-! ## What a write does to the live entities -/

/-- The supply that an entity got its identity from. -/
def supply (g : Graph) : EntityRef → IdSupply
  | .node _ => g.nodeIds
  | .relationship _ => g.relIds

/-- One entity is new, under the number that the supply of its kind handed out. -/
structure Brings (g : Graph) (e : EntityRef) (g' : Graph) : Prop where
  number : e.number = (g.supply e).take.1
  live : ∀ other, g'.contains other = true ↔ other = e ∨ g.contains other = true
  supply : ∀ other, g'.supply other =
    if other.kind = e.kind then (g.supply other).take.2 else g.supply other

/-- One entity is gone, and its number given back if the graph recycles. -/
structure Removes (g : Graph) (e : EntityRef) (g' : Graph) : Prop where
  found : g.contains e = true
  live : ∀ other, g'.contains other = true ↔ other ≠ e ∧ g.contains other = true
  supply : ∀ other, g'.supply other =
    if other.kind = e.kind then g.giveBack (g.supply other) e.number else g.supply other

/-- What can happen to the live entities and the identities left: nothing, or one
entity comes or goes. -/
inductive Turnover (g g' : Graph) : Prop
  | keeps : SameLive g g' → (∀ e, g'.supply e = g.supply e) → Turnover g g'
  | brings {e : EntityRef} : g.Brings e g' → Turnover g g'
  | removes {e : EntityRef} : g.Removes e g' → Turnover g g'

theorem brings_createNode (g : Graph) (labels : List String)
    (properties : List (String × Value)) :
    g.Brings (.node g.takeNodeId.1) (g.createNode labels properties).2 where
  number := rfl
  live _ := contains_createNode_iff
  supply other := by cases other <;> rfl

theorem brings_storeRelationship (g : Graph) (type : String) (source target : NodeId)
    (properties : List (String × Value)) :
    g.Brings (.relationship g.takeRelId.1) (g.takeRelId.2.storeRelationship
      (.create g.takeRelId.1 type source target properties)) where
  number := rfl
  live _ := contains_storeRelationship_iff
  supply other := by cases other <;> rfl

theorem removes_strikeRelationship {id : RelId} {rel : Relationship}
    (found : g.relationship? id = some rel) :
    g.Removes (.relationship id) (g.strikeRelationship id rel) where
  found := hasRelationship_iff.2 ⟨rel, found⟩
  live _ := contains_strikeRelationship_iff
  supply other := by cases other <;> rfl

theorem removes_strikeNode {id : NodeId} {node : Node} (found : g.node? id = some node) :
    g.Removes (.node id) (g.strikeNode id node) where
  found := hasNode_iff.2 ⟨node, found⟩
  live _ := contains_strikeNode_iff
  supply other := by cases other <;> rfl

theorem Write.turnover (step : Write g g') : Turnover g g' := by
  cases step with
  | createNode labels properties => exact .brings (g.brings_createNode labels properties)
  | storeRelationship properties _ _ _ =>
    exact .brings (g.brings_storeRelationship _ _ _ properties)
  | strikeRelationship found => exact .removes (removes_strikeRelationship found)
  | strikeNode found => exact .removes (removes_strikeNode found)
  | storeLabel found _ =>
    exact .keeps (sameLive_of_insertNode found rfl rfl) fun e => by cases e <;> rfl
  | strikeLabel found _ =>
    exact .keeps (sameLive_of_insertNode found rfl rfl) fun e => by cases e <;> rfl
  | storeProperty _ _ found =>
    exact .keeps (sameLive_of_insertNode found rfl rfl) fun e => by cases e <;> rfl
  | writeRelationship _ _ found =>
    exact .keeps (sameLive_of_insertRelationship found rfl rfl) fun e => by cases e <;> rfl
  | declareIndex _ => exact .keeps (fun _ => rfl) fun e => by cases e <;> rfl
  | dropIndex _ => exact .keeps (fun _ => rfl) fun e => by cases e <;> rfl

/-! ## Identities that are not recycled -/

/-- Without recycling no number is given back. -/
theorem giveBack_of_once (once : g.config.recycleIds = false) (s : IdSupply) (number : Nat) :
    g.giveBack s number = s := by
  rw [giveBack, once]
  rfl

/-- How a graph behaves is never changed. -/
theorem config_write (step : Write g g') : g'.config = g.config := by
  cases step <;> rfl

theorem config_writes (walked : Writes g g') : g'.config = g.config := by
  induction walked with
  | refl => rfl
  | tail _ step ih => exact (config_write step).trans ih

/-- Without recycling a write takes at most one number out of a supply, and puts none back. -/
theorem supply_write (once : g.config.recycleIds = false) (step : Write g g') (e : EntityRef) :
    g'.supply e = g.supply e ∨ g'.supply e = (g.supply e).take.2 := by
  cases step.turnover with
  | keeps _ supply => exact .inl (supply e)
  | brings brought =>
    rw [brought.supply]
    split
    · exact .inr rfl
    · exact .inl rfl
  | removes removed =>
    rw [removed.supply, giveBack_of_once once]
    exact .inl (ite_self _)

/-- An entity that a write brings got the number that its supply handed out. -/
theorem live_write (step : Write g g') (live : g'.contains e = true) :
    g.contains e = true ∨ e.number = (g.supply e).take.1 := by
  cases step.turnover with
  | keeps same _ => exact .inl (live_of_sameLive live same)
  | brings brought =>
    rcases (brought.live e).1 live with rfl | live
    · exact .inr brought.number
    · exact .inl live
  | removes removed => exact .inl ((removed.live e).1 live).2

/-- The identity of the entity was handed out, and the graph does not recycle. -/
structure Issued (g : Graph) (e : EntityRef) : Prop where
  once : g.config.recycleIds = false
  past : (g.supply e).Past e.number

theorem Issued.write (issued : g.Issued e) (step : Write g g') : g'.Issued e := by
  refine ⟨(congrArg GraphConfig.recycleIds (config_write step)).trans issued.once, ?_⟩
  rcases supply_write issued.once step e with same | taken
  · rw [same]
    exact issued.past
  · rw [taken]
    exact issued.past.take

/-- Once an entity is gone from a graph that does not recycle, no writes bring it back. -/
theorem Issued.stays_dead (issued : g.Issued e) (dead : g.contains e = false)
    (walked : Writes g g') : g'.contains e = false := by
  have both : g'.Issued e ∧ g'.contains e = false := by
    induction walked with
    | refl => exact ⟨issued, dead⟩
    | tail _ step ih =>
      refine ⟨ih.1.write step, Bool.eq_false_iff.2 fun live => ?_⟩
      rcases live_write step live with live | taken
      · exact Bool.eq_false_iff.1 ih.2 live
      · exact ih.1.past.take_ne taken
  exact both.2

theorem Issued.writes (issued : g.Issued e) (walked : Writes g g') : g'.Issued e := by
  induction walked with
  | refl => exact issued
  | tail _ step ih => exact ih.write step

/-- Without recycling no number waits to be handed out again. -/
theorem Reachable.returned_eq_nil (reachable : g.Reachable) (once : g.config.recycleIds = false)
    (e : EntityRef) : (g.supply e).returned = [] := by
  refine reachable.of_writes (P := fun g => g.config.recycleIds = false →
    (g.supply e).returned = []) (fun config _ => ?_) (fun {g g'} kept step => ?_) once
  · cases e <;> rfl
  · rw [config_write step]
    intro once
    rcases supply_write once step e with same | taken
    · rw [same]
      exact kept once
    · rw [taken, IdSupply.take_of_kept (kept once)]
      exact kept once

/-- The identity of a live entity was handed out. -/
theorem Reachable.issued (reachable : g.Reachable) (once : g.config.recycleIds = false)
    (live : g.contains e = true) : g.Issued e := by
  have stored := reachable.coherent.stored
  refine ⟨once, reachable.returned_eq_nil once e, ?_⟩
  cases e with
  | node id => exact stored.nodeIds.below _ live
  | relationship id => exact stored.relIds.below _ live

end Graph

end PropertyGraph
