import PropertyGraph.Proofs.Graph.Coherence
import PropertyGraph.Proofs.Graph.Deletion

/-!
# Referential integrity

Every live relationship stands between live nodes. It is created there, its ends
never change, and a node is taken away only after the relationships at it, which
the adjacency finds. So what the graph lists at a node, at either end or between
two nodes, are all the relationships there and nothing that is gone.
-/

namespace PropertyGraph

open Std

namespace Graph

variable {g g' : Graph}

/-! ## Ends of relationships -/

/-- Both ends of every live relationship are live. -/
def Anchored (g : Graph) : Prop :=
  ∀ id rel, g.relationship? id = some rel →
    g.hasNode rel.source = true ∧ g.hasNode rel.target = true

theorem Anchored.empty (config : GraphConfig) : (Graph.empty config).Anchored := by
  intro id rel found
  cases found

/-- Relationships whose ends were live before have live ends as long as no node is
taken away. -/
theorem Anchored.of_kept (anchored : g.Anchored)
    (nodes : ∀ id, g.hasNode id = true → g'.hasNode id = true)
    (rels : ∀ id rel', g'.relationship? id = some rel' →
      (g.hasNode rel'.source = true ∧ g.hasNode rel'.target = true) ∨
        ∃ id rel, g.relationship? id = some rel ∧ rel.source = rel'.source ∧
          rel.target = rel'.target) : g'.Anchored := by
  intro id rel' found
  rcases rels id rel' found with ⟨source, target⟩ | ⟨id', rel, stored, sources, targets⟩
  · exact ⟨nodes _ source, nodes _ target⟩
  · obtain ⟨source, target⟩ := anchored id' rel stored
    exact ⟨nodes _ (sources ▸ source), nodes _ (targets ▸ target)⟩

/-- A write that takes no node away leaves every relationship between live nodes. -/
theorem Anchored.write (anchored : g.Anchored) (step : SparingWrite g g') : g'.Anchored := by
  obtain ⟨step, kept⟩ := step
  have same : g'.relationships = g.relationships → g'.Anchored := fun unchanged =>
    anchored.of_kept kept fun id rel found =>
      .inr ⟨id, rel, by rwa [relationship?, ← unchanged], rfl, rfl⟩
  cases step with
  | createNode _ _ => exact same rfl
  | storeLabel _ _ => exact same rfl
  | strikeLabel _ _ => exact same rfl
  | storeProperty _ _ _ => exact same rfl
  | strikeNode _ => exact same rfl
  | declareIndex _ => exact same rfl
  | dropIndex _ => exact same rfl
  | @writeRelationship id rel key value stored =>
    refine anchored.of_kept kept fun n rel' found => .inr ?_
    by_cases here : n = id
    · subst here
      cases (OrderedMap.get?_insert_self g.relationships n (rel.write key value)).symm.trans found
      exact ⟨n, rel, stored, rfl, rfl⟩
    · exact ⟨n, rel', (OrderedMap.get?_insert_of_ne g.relationships _ here).symm.trans found,
        rfl, rfl⟩
  | @storeRelationship type source target properties _ sourceLive targetLive =>
    let created := Relationship.create g.takeRelId.1 type source target properties
    have here : (g.takeRelId.2.storeRelationship created).relationship? created.id =
        some created := relationship?_storeRelationship _ _
    have elsewhere : ∀ n, n ≠ created.id →
        (g.takeRelId.2.storeRelationship created).relationship? n = g.relationship? n :=
      fun n other => relationship?_storeRelationship_of_ne other
    refine anchored.of_kept kept fun n rel' found => ?_
    by_cases same : n = created.id
    · subst same
      cases here.symm.trans found
      exact .inl ⟨sourceLive, targetLive⟩
    · exact .inr ⟨n, rel', (elsewhere n same).symm.trans found, rfl, rfl⟩
  | @strikeRelationship id rel _ =>
    refine anchored.of_kept kept fun n rel' found => ?_
    rw [relationship?_strikeRelationship] at found
    split at found
    · cases found
    · exact .inr ⟨n, rel', found, rfl, rfl⟩

/-- The relationships that a deleted node stood at an end of went before it. -/
theorem Anchored.deleteNode (anchored : g.Anchored) (linked : g.Linked) (id : NodeId) :
    (deleteNode id g).2.Anchored := by
  cases live : g.hasNode id with
  | false =>
    rw [deleteNode_eq_error live]
    exact anchored
  | true =>
    obtain ⟨g', deleted, deletes⟩ := linked.deleteNode_eq_ok live
    rw [deleted]
    have stays : ∀ n, n ≠ id → g.hasNode n = true → g'.hasNode n = true := by
      intro n other alive
      obtain ⟨node, stored⟩ := hasNode_iff.1 alive
      exact hasNode_iff.2 ⟨node, by rw [deletes.nodes, if_neg other, stored]⟩
    intro n rel found
    rw [deletes.relationships] at found
    split at found
    · cases found
    · rename_i apart
      have untouched : rel.involves id = false := Bool.eq_false_iff.2 fun involved =>
        apart (linked.mem_edgesInvolving_iff.2 ⟨rel, found, involved⟩)
      rw [Relationship.involves, Bool.or_eq_false_iff, decide_eq_false_iff_not,
        decide_eq_false_iff_not] at untouched
      obtain ⟨source, target⟩ := anchored n rel found
      exact ⟨stays _ untouched.1 source, stays _ untouched.2 target⟩

theorem Anchored.after (anchored : g.Anchored) (linked : g.Linked) (operation : Operation) :
    (g.after operation).Anchored := by
  rcases g.after_cases operation with ⟨id, rfl⟩ | same | step
  · exact anchored.deleteNode linked id
  · rwa [same]
  · exact anchored.write step

/-- In a reachable graph both ends of every live relationship are live. -/
theorem Reachable.anchored (reachable : g.Reachable) : g.Anchored := by
  induction reachable with
  | empty config => exact .empty config
  | after operation earlier ih => exact ih.after earlier.coherent.linked operation

/-! ## Lists of relationships -/

/-- The list names exactly the live relationships that satisfy the condition, each
once and in ascending order. -/
structure Lists (g : Graph) (ids : List RelId) (condition : Relationship → Prop) : Prop where
  mem : ∀ id, id ∈ ids ↔ ∃ rel, g.relationship? id = some rel ∧ condition rel
  ascending : ids.Pairwise fun a b => compare a b = .lt

variable {side : Postings TypedEnd RelId} {filedAt : Relationship → TypedEnd}

/-- A relationship is filed in one place, so what is filed at a node under all types
together names none twice. -/
theorem atNode_none_ascending (exact : SideOf side filedAt g.relationship?) (node : NodeId) :
    (Adjacency.atNode side node none).Pairwise fun a b => compare a b = .lt := by
  refine sortBy_strictly_ascending (List.pairwise_map.2 ?_)
  refine (side.toList_ascending.filter _).imp_of_mem fun {a b} memA memB below equal => ?_
  obtain ⟨rel, stored, filed⟩ :=
    (exact a.1 a.2).1 (Postings.holds_of_mem_toList (List.mem_filter.1 memA).1)
  obtain ⟨rel', stored', filed'⟩ :=
    (exact b.1 b.2).1 (Postings.holds_of_mem_toList (List.mem_filter.1 memB).1)
  rw [LawfulEqOrd.eq_of_compare equal] at stored
  cases stored.symm.trans stored'
  have one : compare a.1 b.1 = .eq := by
    rw [← filed, ← filed']
    exact ReflCmp.compare_self
  rw [Postings.order_eq, one, equal] at below
  cases below

/-- What one side of the adjacency has at a node, under one type or under all. -/
theorem lists_atNode (exact : SideOf side filedAt g.relationship?) (node : NodeId)
    (type : Option String) :
    g.Lists (Adjacency.atNode side node type) fun rel =>
      (filedAt rel).node = node ∧ ∀ t ∈ type, (filedAt rel).type = t := by
  cases type with
  | none =>
    refine ⟨fun id => ?_, atNode_none_ascending exact node⟩
    rw [exact.mem_atNode_iff]
    simp
  | some type =>
    have place : ∀ e : TypedEnd, e = ⟨node, type⟩ ↔ e.node = node ∧ e.type = type :=
      fun ⟨_, _⟩ => by rw [TypedEnd.mk.injEq]
    refine ⟨fun id => (Postings.mem_members_iff.trans (exact ⟨node, type⟩ id)).trans ?_,
      Postings.members_ascending _ _⟩
    simp [place, eq_comm]

theorem Lists.filter {ids : List RelId} {condition condition' : Relationship → Prop}
    (lists : g.Lists ids condition) (test : RelId → Bool)
    (decides : ∀ id rel, g.relationship? id = some rel → (test id = true ↔ condition' rel)) :
    g.Lists (ids.filter test) fun rel => condition rel ∧ condition' rel where
  mem id := by
    rw [List.mem_filter, lists.mem]
    constructor
    · intro given
      rcases given with ⟨⟨rel, stored, holds⟩, kept⟩
      exact ⟨rel, stored, holds, (decides id rel stored).1 kept⟩
    · intro given
      rcases given with ⟨rel, stored, holds, holds'⟩
      exact ⟨⟨rel, stored, holds⟩, (decides id rel stored).2 holds'⟩
  ascending := lists.ascending.filter _

/-- In a reachable graph every relationship has a type and stands between live nodes.
The relationships listed as leaving or entering a node, of one type or of all, as
standing at a node at either end, and as leading from one node to another are exactly
the live ones that do, each listed once and in ascending order. -/
theorem adjacency_exact (reachable : g.Reachable) :
    (∀ id rel, g.relationship? id = some rel →
      g.hasNode rel.source = true ∧ g.hasNode rel.target = true ∧ rel.type ≠ "") ∧
    (∀ node type, g.Lists (g.edgesFrom node type) fun rel =>
      rel.source = node ∧ ∀ t ∈ type, rel.type = t) ∧
    (∀ node type, g.Lists (g.edgesTo node type) fun rel =>
      rel.target = node ∧ ∀ t ∈ type, rel.type = t) ∧
    (∀ node, g.Lists (g.adjacency.edgesInvolving node) (fun rel =>
        rel.source = node ∨ rel.target = node) ∧
      ∀ id, id ∈ g.adjacency.edgesInvolving node ↔
        id ∈ g.edgesFrom node none ∨ id ∈ g.edgesTo node none) ∧
    ∀ source target type, g.Lists (g.edgesBetween source target type) fun rel =>
      (rel.source = source ∧ ∀ t ∈ type, rel.type = t) ∧ rel.target = target := by
  have coherent := reachable.coherent
  have linked := coherent.linked
  refine ⟨fun id rel stored => ?_, lists_atNode linked.leaving, lists_atNode linked.entering,
    fun node => ⟨⟨fun id => ?_, OrderedSet.toList_ascending _⟩, fun id => ?_⟩,
    fun source target type => (lists_atNode linked.leaving source type).filter _ ?_⟩
  · obtain ⟨source, target⟩ := reachable.anchored id rel stored
    have typed := (coherent.stored.relationships id rel stored).typed
    exact ⟨source, target, fun untyped => by simp [untyped] at typed⟩
  · rw [linked.mem_edgesInvolving_iff]
    simp [Relationship.involves]
  · rw [Adjacency.edgesInvolving, OrderedSet.mem_toList_ofList_iff, List.mem_append]
    rfl
  · intro id rel stored
    rw [stored]
    exact decide_eq_true_iff

theorem adjacency_exact_after_cascade :
    let g := (Graph.empty ⟨true, true⟩).afterAll
      [.createNode [] [], .createNode [] [], .createNode [] [],
        .createRelationship "knows" ⟨1⟩ ⟨2⟩ [], .createRelationship "likes" ⟨2⟩ ⟨3⟩ [],
        .createRelationship "knows" ⟨3⟩ ⟨3⟩ [], .createRelationship "knows" ⟨1⟩ ⟨2⟩ [],
        .deleteNode ⟨3⟩, .createRelationship "likes" ⟨2⟩ ⟨3⟩ [],
        .createRelationship "likes" ⟨1⟩ ⟨1⟩ []]
    g.Reachable ∧ g.hasNode ⟨3⟩ = false ∧ g.edgesFrom ⟨3⟩ none = [] ∧
      g.edgesFrom ⟨1⟩ none = [⟨1⟩, ⟨3⟩, ⟨4⟩] ∧ g.edgesTo ⟨2⟩ (some "knows") = [⟨1⟩, ⟨4⟩] ∧
      g.adjacency.edgesInvolving ⟨1⟩ = [⟨1⟩, ⟨3⟩, ⟨4⟩] ∧
      g.Lists (g.edgesBetween ⟨1⟩ ⟨2⟩ (some "knows")) fun rel =>
        (rel.source = ⟨1⟩ ∧ ∀ t ∈ some "knows", rel.type = t) ∧ rel.target = ⟨2⟩ := by
  intro g
  have reachable : g.Reachable := (Reachable.empty _).afterAll _
  exact ⟨reachable, by decide, by decide, by decide, by decide, by decide,
    (adjacency_exact reachable).2.2.2.2 ⟨1⟩ ⟨2⟩ (some "knows")⟩

end Graph

end PropertyGraph
