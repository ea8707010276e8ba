import PropertyGraph.Proofs.Graph.Storage
import PropertyGraph.Proofs.Index.Postings
import PropertyGraph.Proofs.Ordered.Sort

/-!
# Relationships by their ends

Each side of the adjacency posts a relationship under its end on that side and
its type exactly if the relationship is live. Neither changes while a
relationship lives, so only the writes that enter and strike relationships touch
the adjacency. What the graph lists at a node is therefore every live
relationship there, each once.
-/

namespace PropertyGraph

open Std

namespace Relationship

/-- Where the relationship is filed among those that leave nodes. -/
def leaves (rel : Relationship) : TypedEnd := ⟨rel.source, rel.type⟩

/-- Where the relationship is filed among those that enter nodes. -/
def enters (rel : Relationship) : TypedEnd := ⟨rel.target, rel.type⟩

end Relationship

/-! ## One side of the adjacency -/

/-- One side posts exactly the live relationships, each under the end that it
has on that side. -/
def SideOf (side : Postings TypedEnd RelId) (filedAt : Relationship → TypedEnd)
    (rel? : RelId → Option Relationship) : Prop :=
  ∀ place id, side.holds place id = true ↔ ∃ rel, rel? id = some rel ∧ filedAt rel = place

namespace SideOf

variable {side : Postings TypedEnd RelId} {filedAt : Relationship → TypedEnd}
  {rel? rel?' : RelId → Option Relationship}

theorem post (exact : SideOf side filedAt rel?) {id : RelId} {rel : Relationship}
    (free : rel? id = none) (stored : rel?' id = some rel)
    (elsewhere : ∀ n, n ≠ id → rel?' n = rel? n) :
    SideOf (side.post (filedAt rel) id) filedAt rel?' := by
  intro place n
  rw [Postings.holds_post_iff, exact place n, Std.compare_eq_iff_eq]
  by_cases same : n = id
  · subst same
    simp [free, stored]
  · simp [same, elsewhere n same]

theorem withdraw (exact : SideOf side filedAt rel?) {id : RelId} {rel : Relationship}
    (stored : rel? id = some rel) (struck : rel?' id = none)
    (elsewhere : ∀ n, n ≠ id → rel?' n = rel? n) :
    SideOf (side.withdraw (filedAt rel) id) filedAt rel?' := by
  intro place n
  rw [Postings.holds_withdraw_iff, exact place n, Std.compare_eq_iff_eq]
  by_cases same : n = id
  · subst same
    simp [stored, struck]
  · simp [same, elsewhere n same]

/-- Replacing a relationship by one with the same end changes no posting. -/
theorem replace (exact : SideOf side filedAt rel?) {id : RelId} {rel rel' : Relationship}
    (stored : rel? id = some rel) (stored' : rel?' id = some rel')
    (unmoved : filedAt rel' = filedAt rel) (elsewhere : ∀ n, n ≠ id → rel?' n = rel? n) :
    SideOf side filedAt rel?' := by
  intro place n
  rw [exact place n]
  by_cases same : n = id
  · subst same
    simp [stored, stored', unmoved]
  · rw [elsewhere n same]

/-- All that is filed at a node on one side. -/
theorem mem_atNode_iff (exact : SideOf side filedAt rel?) {node : NodeId} {id : RelId} :
    id ∈ Adjacency.atNode side node none ↔
      ∃ rel, rel? id = some rel ∧ (filedAt rel).node = node := by
  rw [Adjacency.atNode, (sortBy_perm _ _).mem_iff, List.mem_map]
  constructor
  · intro given
    rcases given with ⟨⟨place, id⟩, mem, rfl⟩
    rw [List.mem_filter, decide_eq_true_iff] at mem
    obtain ⟨rel, stored, filed⟩ := (exact place id).1 (Postings.holds_of_mem_toList mem.1)
    exact ⟨rel, stored, filed ▸ mem.2⟩
  · intro given
    rcases given with ⟨rel, stored, here⟩
    obtain ⟨place, mem, same⟩ :=
      Postings.exists_mem_toList ((exact (filedAt rel) id).2 ⟨rel, stored, rfl⟩)
    rw [Std.compare_eq_iff_eq] at same
    refine ⟨(place, id), List.mem_filter.2 ⟨mem, ?_⟩, rfl⟩
    rw [decide_eq_true_iff, same]
    exact here

end SideOf

namespace Graph

variable {g g' : Graph}

/-! ## The adjacency -/

/-- Both sides of the adjacency post exactly the live relationships. -/
structure Linked (g : Graph) : Prop where
  leaving : SideOf g.adjacency.leaving Relationship.leaves g.relationship?
  entering : SideOf g.adjacency.entering Relationship.enters g.relationship?

theorem Linked.empty (config : GraphConfig) : (Graph.empty config).Linked := by
  have side : ∀ filedAt, SideOf ∅ filedAt (Graph.empty config).relationship? := by
    intro filedAt place id
    constructor
    · intro held
      cases held
    · intro given
      rcases given with ⟨_, found, _⟩
      cases found
  exact ⟨side _, side _⟩

/-- The adjacency of both sides keeps up with every write. -/
theorem Linked.write (linked : g.Linked) (stored : g.Stored) (step : Write g g') :
    g'.Linked := by
  cases step with
  | createNode _ _ => exact ⟨linked.leaving, linked.entering⟩
  | storeLabel _ _ => exact ⟨linked.leaving, linked.entering⟩
  | strikeLabel _ _ => exact ⟨linked.leaving, linked.entering⟩
  | storeProperty _ _ _ => exact ⟨linked.leaving, linked.entering⟩
  | strikeNode _ => exact ⟨linked.leaving, linked.entering⟩
  | declareIndex _ => exact ⟨linked.leaving, linked.entering⟩
  | dropIndex _ => exact ⟨linked.leaving, linked.entering⟩
  | @writeRelationship id rel key value found =>
    have elsewhere := fun n (other : n ≠ id) =>
      OrderedMap.get?_insert_of_ne g.relationships (rel.write key value) other
    have stored' := OrderedMap.get?_insert_self g.relationships id (rel.write key value)
    exact ⟨linked.leaving.replace found stored' rfl elsewhere,
      linked.entering.replace found stored' rfl elsewhere⟩
  | @storeRelationship type source target properties _ _ _ =>
    have free := stored.takeRelId_free
    have elsewhere := fun n (other : n ≠ g.takeRelId.1) => OrderedMap.get?_insert_of_ne
      g.relationships (.create g.takeRelId.1 type source target properties) other
    have stored' := OrderedMap.get?_insert_self
      g.relationships g.takeRelId.1 (.create g.takeRelId.1 type source target properties)
    exact ⟨linked.leaving.post free stored' elsewhere, linked.entering.post free stored' elsewhere⟩
  | @strikeRelationship id rel found =>
    have elsewhere := fun n (other : n ≠ id) =>
      OrderedMap.get?_erase_of_ne g.relationships other
    have struck := OrderedMap.get?_erase_self g.relationships id
    exact ⟨linked.leaving.withdraw found struck elsewhere,
      linked.entering.withdraw found struck elsewhere⟩

/-! ## The relationships at a node -/

theorem Linked.mem_edgesFrom_iff (linked : g.Linked) {node : NodeId} {type : String} {id : RelId} :
    id ∈ g.edgesFrom node (some type) ↔
      ∃ rel, g.relationship? id = some rel ∧ rel.source = node ∧ rel.type = type := by
  refine (Postings.mem_members_iff.trans (linked.leaving ⟨node, type⟩ id)).trans ?_
  simp only [Relationship.leaves, TypedEnd.mk.injEq]

theorem Linked.mem_edgesTo_iff (linked : g.Linked) {node : NodeId} {type : String} {id : RelId} :
    id ∈ g.edgesTo node (some type) ↔
      ∃ rel, g.relationship? id = some rel ∧ rel.target = node ∧ rel.type = type := by
  refine (Postings.mem_members_iff.trans (linked.entering ⟨node, type⟩ id)).trans ?_
  simp only [Relationship.enters, TypedEnd.mk.injEq]

theorem Linked.mem_edgesBetween_iff (linked : g.Linked) {source target : NodeId} {type : String}
    {id : RelId} :
    id ∈ g.edgesBetween source target (some type) ↔
      ∃ rel, g.relationship? id = some rel ∧ rel.source = source ∧ rel.target = target ∧
        rel.type = type := by
  rw [edgesBetween, List.mem_filter, linked.mem_edgesFrom_iff]
  constructor
  · intro given
    rcases given with ⟨⟨rel, found, from_, typed⟩, to_⟩
    rw [found] at to_
    exact ⟨rel, found, from_, of_decide_eq_true to_, typed⟩
  · intro given
    rcases given with ⟨rel, found, from_, to_, typed⟩
    refine ⟨⟨rel, found, from_, typed⟩, ?_⟩
    rw [found]
    exact decide_eq_true to_

/-- What is deleted with a node are the live relationships that it stands at an
end of. -/
theorem Linked.mem_edgesInvolving_iff (linked : g.Linked) {node : NodeId} {id : RelId} :
    id ∈ g.adjacency.edgesInvolving node ↔
      ∃ rel, g.relationship? id = some rel ∧ rel.involves node = true := by
  rw [Adjacency.edgesInvolving, OrderedSet.mem_toList_ofList_iff, List.mem_append,
    Adjacency.edgesFrom, Adjacency.edgesTo, linked.leaving.mem_atNode_iff,
    linked.entering.mem_atNode_iff, ← exists_or]
  simp only [← and_or_left, Relationship.leaves, Relationship.enters, Relationship.involves,
    Bool.or_eq_true, decide_eq_true_iff]

theorem edgesInvolving_nodup (g : Graph) (node : NodeId) :
    (g.adjacency.edgesInvolving node).Nodup :=
  nodup_of_ascending (OrderedSet.toList_ascending _)

theorem edgesFrom_nodup (g : Graph) (node : NodeId) (type : String) :
    (g.edgesFrom node (some type)).Nodup :=
  nodup_of_ascending (Postings.members_ascending _ _)

theorem edgesTo_nodup (g : Graph) (node : NodeId) (type : String) :
    (g.edgesTo node (some type)).Nodup :=
  nodup_of_ascending (Postings.members_ascending _ _)

theorem edgesBetween_nodup (g : Graph) (source target : NodeId) (type : String) :
    (g.edgesBetween source target (some type)).Nodup :=
  (g.edgesFrom_nodup source type).filter _

end Graph

end PropertyGraph
