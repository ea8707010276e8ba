import PropertyGraph.Proofs.Graph.Coherence
import PropertyGraph.Proofs.Graph.LabelCatalog
import PropertyGraph.Proofs.Match.Exactness
import PropertyGraph.Proofs.Statement.Reachable

/-!
# Creating a pattern

Everything that can stand in the way of a creation is looked at before anything
is written: whether the bound nodes are live and accepted and no relationship is
bound. From then on nothing fails, since a relationship is only created between
nodes that are live by then and with a type that the pattern has checked. So a
creation that fails leaves the execution as it was, and one that does not fail
adds one entity for every slot that the row leaves open.
-/

namespace PropertyGraph

open Std

namespace Execution

variable {g g' : Graph} {p : Pattern} {row : BindingRow} {x x' : Execution}

/-! ## The check before a creation -/

/-- The row fixes the slot to a live node that the slot does not accept. -/
def Rejects (g : Graph) (row : BindingRow) (slot : NodeSlot) : Prop :=
  ∃ id node, slot.bound? row = some (.node id) ∧ g.node? id = some node ∧
    slot.accepts node = false

/-- What the row fixes a node slot to, if to a node. -/
def fixedNode (row : BindingRow) (slot : NodeSlot) : Option NodeId :=
  (slot.bound? row).bind EntityRef.node?

theorem boundNode?_of_accepts {slot : NodeSlot} (usable : slot.Usable g row)
    (accepts : ¬Rejects g row slot) : boundNode? g row slot = .ok (fixedNode row slot) := by
  unfold boundNode? fixedNode
  cases bound : slot.bound? row with
  | none => rfl
  | some entity =>
    obtain ⟨id, rfl, live⟩ := usable entity bound
    obtain ⟨node, found⟩ := Graph.hasNode_iff.1 live
    dsimp only
    rw [found]
    dsimp only
    split
    · rfl
    · rename_i refused
      exact (accepts ⟨id, node, bound, found, Bool.eq_false_iff.2 refused⟩).elim

theorem boundNode?_of_rejects {slot : NodeSlot} (rejects : Rejects g row slot) :
    boundNode? g row slot = .error (.boundConstraintViolation slot.displayName) := by
  obtain ⟨id, node, bound, found, refused⟩ := rejects
  unfold boundNode?
  rw [bound]
  dsimp only
  rw [found]
  dsimp only
  rw [refused]
  rfl

/-- If no slot rejects its node, the nodes that the row fixes pass the check. -/
theorem mapM_boundNode?_eq_ok {slots : List NodeSlot}
    (usable : ∀ slot ∈ slots, slot.Usable g row) (accepts : ∀ slot ∈ slots, ¬Rejects g row slot) :
    slots.mapM (boundNode? g row) = .ok (slots.map (fixedNode row)) := by
  induction slots with
  | nil => rfl
  | cons slot rest ih =>
    rw [List.forall_mem_cons] at usable accepts
    rw [List.mapM_cons, boundNode?_of_accepts usable.1 accepts.1, ih usable.2 accepts.2]
    rfl

/-- If some slot rejects its node, the first that does is named. -/
theorem mapM_boundNode?_eq_error {slots : List NodeSlot}
    (usable : ∀ slot ∈ slots, slot.Usable g row) (rejects : ∃ slot ∈ slots, Rejects g row slot) :
    ∃ slot ∈ slots, Rejects g row slot ∧
      slots.mapM (boundNode? g row) = .error (.boundConstraintViolation slot.displayName) := by
  induction slots with
  | nil =>
    obtain ⟨_, mem, _⟩ := rejects
    cases mem
  | cons slot rest ih =>
    rw [List.forall_mem_cons] at usable
    rw [List.mapM_cons]
    by_cases first : Rejects g row slot
    · rw [boundNode?_of_rejects first]
      exact ⟨slot, List.mem_cons_self, first, rfl⟩
    · obtain ⟨other, mem, rejected, failed⟩ := ih usable.2 <| by
        obtain ⟨other, mem, rejected⟩ := rejects
        rcases List.mem_cons.1 mem with rfl | mem
        · exact (first rejected).elim
        · exact ⟨other, mem, rejected⟩
      rw [boundNode?_of_accepts usable.1 first, failed]
      exact ⟨other, List.mem_cons_of_mem _ mem, rejected, rfl⟩

/-- A slot that passes the check answers what the row fixes it to, and the row
fixes it to a live node if at all. -/
theorem of_boundNode? {slot : NodeSlot} {bound : Option NodeId}
    (checked : boundNode? g row slot = .ok bound) :
    bound = fixedNode row slot ∧ slot.Usable g row := by
  unfold boundNode? at checked
  unfold fixedNode NodeSlot.Usable
  cases fixed : slot.bound? row with
  | none =>
    rw [fixed] at checked
    cases checked
    refine ⟨rfl, fun entity none => ?_⟩
    cases none
  | some entity =>
    rw [fixed] at checked
    cases entity with
    | relationship _ => cases checked
    | node id =>
      dsimp only at checked
      cases found : g.node? id with
      | none =>
        rw [found] at checked
        cases checked
      | some node =>
        rw [found] at checked
        dsimp only at checked
        split at checked
        · cases checked
          refine ⟨rfl, fun entity same => ?_⟩
          cases same
          exact ⟨id, rfl, Graph.hasNode_iff.2 ⟨node, found⟩⟩
        · cases checked

theorem of_mapM_boundNode? {slots : List NodeSlot} {bound : List (Option NodeId)}
    (checked : slots.mapM (boundNode? g row) = .ok bound) :
    bound = slots.map (fixedNode row) ∧ ∀ slot ∈ slots, slot.Usable g row := by
  induction slots generalizing bound with
  | nil =>
    cases checked
    exact ⟨rfl, fun slot mem => by cases mem⟩
  | cons slot rest ih =>
    rw [List.mapM_cons] at checked
    obtain ⟨first, here, checked⟩ := of_bind_eq_ok checked
    obtain ⟨others, later, checked⟩ := of_bind_eq_ok checked
    cases checked
    obtain ⟨rfl, usable⟩ := of_boundNode? here
    obtain ⟨rfl, usable'⟩ := ih later
    exact ⟨rfl, List.forall_mem_cons.2 ⟨usable, usable'⟩⟩

theorem of_checkCreation {bound : List (Option NodeId)}
    (checked : checkCreation g p row = .ok bound) :
    bound = p.nodes.map (fixedNode row) ∧ (∀ slot ∈ p.nodes, slot.Usable g row) ∧
      ∀ slot ∈ p.rels, slot.bound? row = none := by
  obtain ⟨nodes, mapped, checked⟩ := of_bind_eq_ok checked
  obtain ⟨rfl, usable⟩ := of_mapM_boundNode? mapped
  split at checked
  · cases checked
  · rename_i open_
    cases checked
    refine ⟨rfl, usable, fun slot mem => ?_⟩
    exact Option.not_isSome_iff_eq_none.1 (List.find?_eq_none.1 open_ slot mem)

/-! ## Filling the node slots -/

/-- The node that one slot was filled with: the one it is bound to, or one that
was created for it. -/
def FilledWith (g g' : Graph) (pair : NodeSlot × Option NodeId) (id : NodeId) : Prop :=
  (∀ bound, pair.2 = some bound → id = bound) ∧
    (pair.2 = none → g.node? id = none ∧
      g'.node? id = some (.create id pair.1.labels pair.1.literals))

/-- A key that is free after nothing was taken away was free before. -/
theorem eq_none_of_kept {α β : Type} {f f' : α → Option β}
    (kept : ∀ a b, f a = some b → f' a = some b) {a : α} (absent : f' a = none) :
    f a = none := by
  cases found : f a with
  | none => rfl
  | some b =>
    rw [kept a b found] at absent
    cases absent

/-- What it means that node slots were filled: each with its own node, without
touching what was there. -/
structure Fills (pairs : List (NodeSlot × Option NodeId)) (g : Graph) (ids : List NodeId)
    (g' : Graph) : Prop where
  writes : Graph.Writes g g'
  source : ∀ id ∈ ids, (∃ pair ∈ pairs, pair.2 = some id) ∨ g.node? id = none
  live : ∀ id ∈ ids, g'.hasNode id = true
  each : List.Forall₂ (FilledWith g g') pairs ids
  kept : ∀ id node, g.node? id = some node → g'.node? id = some node
  elsewhere : ∀ id, id ∉ ids → g'.node? id = g.node? id
  relationships : g'.relationships = g.relationships
  catalog : g'.catalog = ((pairs.filter fun pair => pair.2.isNone).flatMap fun pair =>
    pair.1.labels).foldl .register g.catalog
  fresh : (ids.filter fun id => !g.hasNode id).Nodup
  count : g'.nodeCount = g.nodeCount + (pairs.filter fun pair => pair.2.isNone).length

theorem Fills.nil (g : Graph) : Fills [] g [] g where
  writes := .refl
  source _ mem := by cases mem
  live _ mem := by cases mem
  each := .nil
  kept _ _ found := found
  elsewhere _ _ := rfl
  relationships := rfl
  catalog := rfl
  fresh := .nil
  count := rfl

/-- A slot whose node is bound is filled with it, before the other slots are. -/
theorem Fills.bound {pairs : List (NodeSlot × Option NodeId)} {ids : List NodeId}
    (fills : Fills pairs g ids g') (slot : NodeSlot) {id : NodeId} (live : g.hasNode id = true) :
    Fills ((slot, some id) :: pairs) g (id :: ids) g' where
  writes := fills.writes
  source id mem := by
    rcases List.mem_cons.1 mem with rfl | mem
    · exact .inl ⟨_, List.mem_cons_self, rfl⟩
    · refine (fills.source id mem).imp_left ?_
      intro bound
      rcases bound with ⟨pair, mem, same⟩
      exact ⟨pair, List.mem_cons_of_mem _ mem, same⟩
  live := by
    obtain ⟨node, found⟩ := Graph.hasNode_iff.1 live
    exact List.forall_mem_cons.2 ⟨Graph.hasNode_iff.2 ⟨node, fills.kept id node found⟩, fills.live⟩
  each := by
    refine .cons ⟨fun _ same => Option.some.inj same, fun none => ?_⟩ fills.each
    cases none
  kept := fills.kept
  elsewhere other absent := fills.elsewhere other fun mem => absent (List.mem_cons_of_mem _ mem)
  relationships := fills.relationships
  catalog := by
    rw [List.filter_cons_of_neg (by exact Bool.false_ne_true)]
    exact fills.catalog
  fresh := by
    rw [List.filter_cons_of_neg (by rw [live]; exact Bool.false_ne_true)]
    exact fills.fresh
  count := by
    rw [List.filter_cons_of_neg (by exact Bool.false_ne_true)]
    exact fills.count

/-- A slot is filled with a new node, before the other slots are: their bound nodes were
live without it, and the new nodes among theirs are others. -/
theorem Fills.created (stored : g.Stored) {pairs : List (NodeSlot × Option NodeId)}
    {ids : List NodeId} (slot : NodeSlot)
    (live : ∀ pair ∈ pairs, ∀ id, pair.2 = some id → g.hasNode id = true)
    (fills : Fills pairs (g.createNode slot.labels slot.literals).2 ids g') :
    Fills ((slot, none) :: pairs) g (g.takeNodeId.1 :: ids) g' := by
  have free := stored.takeNodeId_free
  have new := g.node?_createNode slot.labels slot.literals
  have wasFree : ∀ id, (g.createNode slot.labels slot.literals).2.node? id = none →
      g.node? id = none :=
    fun id absent => eq_none_of_kept (fun _ _ found => stored.kept_createNode found) absent
  -- A node bound later on was live before, one created later on is not live yet.
  have apart : ∀ id ∈ ids, id ≠ g.takeNodeId.1 := by
    intro id mem same
    subst same
    rcases fills.source _ mem with ⟨pair, mem, same⟩ | absent
    · obtain ⟨node, found⟩ := Graph.hasNode_iff.1 (live pair mem _ same)
      rw [free] at found
      cases found
    · rw [new] at absent
      cases absent
  refine ⟨.head (.createNode slot.labels slot.literals) fills.writes, fun id mem => ?_,
    List.forall_mem_cons.2 ⟨Graph.hasNode_iff.2 ⟨_, fills.kept _ _ new⟩, fills.live⟩, ?_,
    fun id node found => fills.kept id node (stored.kept_createNode found), fun id absent => ?_,
    fills.relationships, ?_, ?_, ?_⟩
  · rcases List.mem_cons.1 mem with rfl | mem
    · exact .inr free
    · refine (fills.source id mem).imp ?_ (wasFree id)
      intro bound
      rcases bound with ⟨pair, mem, same⟩
      exact ⟨pair, List.mem_cons_of_mem _ mem, same⟩
  · refine .cons ⟨fun _ none => ?_, fun _ => ⟨free, fills.kept _ _ new⟩⟩ (fills.each.imp ?_)
    · cases none
    · intro pair id filled
      rcases filled with ⟨bound, created⟩
      exact ⟨bound, fun none => ⟨wasFree id (created none).1, (created none).2⟩⟩
  · rw [List.mem_cons, not_or] at absent
    rw [fills.elsewhere id absent.2, Graph.node?_createNode_of_ne absent.1]
  · rw [fills.catalog, g.catalog_createNode, List.filter_cons_of_pos (by rfl), List.flatMap_cons,
      List.foldl_append]
  · have same : ids.filter (fun id => !g.hasNode id) =
        ids.filter fun id => !(g.createNode slot.labels slot.literals).2.hasNode id := by
      refine List.filter_congr fun id mem => ?_
      rw [Bool.not_inj_iff, Bool.eq_iff_iff, Graph.hasNode_createNode_iff]
      exact ⟨.inr, fun either => either.resolve_left (apart id mem)⟩
    have dead : g.hasNode g.takeNodeId.1 = false :=
      Option.isSome_eq_false_iff.2 (Option.isNone_iff_eq_none.2 free)
    rw [List.filter_cons_of_pos (by rw [dead]; rfl), same, List.nodup_cons]
    exact ⟨fun mem => apart _ (List.mem_filter.1 mem).1 rfl, fills.fresh⟩
  · rw [fills.count, stored.nodeCount_createNode, List.filter_cons_of_pos (by rfl),
      List.length_cons]
    omega

/-- Filling node slots gives each its own node: the bound one, or a new one. -/
theorem fillNodes_spec {pairs : List (NodeSlot × Option NodeId)} (stored : x.graph.Stored)
    (live : ∀ pair ∈ pairs, ∀ id, pair.2 = some id → x.graph.hasNode id = true) :
    Fills pairs x.graph (fillNodes pairs x).1 (fillNodes pairs x).2.graph := by
  induction pairs generalizing x with
  | nil => exact .nil x.graph
  | cons pair rest ih =>
    obtain ⟨slot, bound⟩ := pair
    obtain ⟨here, later⟩ := List.forall_mem_cons.1 live
    cases bound with
    | some id => exact (ih stored later).bound slot (here id rfl)
    | none =>
      obtain ⟨taken, created⟩ := createSlotNode_spec slot x
      have stored' : (createSlotNode slot x).2.graph.Stored := by
        rw [created]
        exact stored.createNode slot.labels slot.literals
      have fills := ih (x := (createSlotNode slot x).2) stored' fun pair mem id same => by
        rw [created]
        exact Graph.hasNode_createNode_iff.2 (.inr (later pair mem id same))
      rw [created] at fills
      have all := Fills.created stored slot later fills
      rw [← taken] at all
      exact all

/-! ## Creating the relationships -/

/-- The relationship that was created for a slot, between the nodes in the slots
of its ends. -/
def ConnectedBy (g g' : Graph) (nodes : List NodeId) (slot : RelSlot) (id : RelId) : Prop :=
  g.relationship? id = none ∧ ∃ source target, nodes[slot.source]? = some source ∧
    nodes[slot.target]? = some target ∧
      g'.relationship? id = some (.create id slot.type source target slot.literals)

/-- What it means that relationships were created for slots, without touching
what was there. -/
structure Connects (nodes : List NodeId) (slots : List RelSlot) (g : Graph) (ids : List RelId)
    (g' : Graph) : Prop where
  writes : Graph.Writes g g'
  free : ∀ id ∈ ids, g.relationship? id = none
  each : List.Forall₂ (ConnectedBy g g' nodes) slots ids
  kept : ∀ id rel, g.relationship? id = some rel → g'.relationship? id = some rel
  elsewhere : ∀ id, id ∉ ids → g'.relationship? id = g.relationship? id
  nodes : g'.nodes = g.nodes
  catalog : g'.catalog = g.catalog
  fresh : ids.Nodup
  count : g'.relationshipCount = g.relationshipCount + slots.length

theorem Connects.nil (nodes : List NodeId) (g : Graph) : Connects nodes [] g [] g where
  writes := .refl
  free _ mem := by cases mem
  each := .nil
  kept _ _ found := found
  elsewhere _ _ := rfl
  nodes := rfl
  catalog := rfl
  fresh := .nil
  count := rfl

/-- A relationship is created for a slot, before those of the other slots are: they find
its number taken and keep it as it is. -/
theorem Connects.created (stored : g.Stored) {nodes : List NodeId} {slots : List RelSlot}
    {ids : List RelId} {slot : RelSlot} {source target : NodeId}
    (typed : slot.type.isEmpty = false) (from_ : nodes[slot.source]? = some source)
    (to_ : nodes[slot.target]? = some target) (sourceLive : g.hasNode source = true)
    (targetLive : g.hasNode target = true)
    (connects : Connects nodes slots (g.takeRelId.2.storeRelationship
      (.create g.takeRelId.1 slot.type source target slot.literals)) ids g') :
    Connects nodes (slot :: slots) g (g.takeRelId.1 :: ids) g' := by
  have free := stored.takeRelId_free
  have freeNow : g.takeRelId.2.relationship?
      (Relationship.create g.takeRelId.1 slot.type source target slot.literals).id = none := free
  have new := Graph.relationship?_storeRelationship g.takeRelId.2
    (.create g.takeRelId.1 slot.type source target slot.literals)
  have kept : ∀ id rel, g.relationship? id = some rel → (g.takeRelId.2.storeRelationship
      (.create g.takeRelId.1 slot.type source target slot.literals)).relationship? id = some rel :=
    fun _ _ found => Graph.kept_storeRelationship freeNow found
  refine ⟨.head (.storeRelationship slot.literals typed sourceLive targetLive) connects.writes,
    fun id mem => ?_, .cons ⟨free, source, target, from_, to_, connects.kept _ _ new⟩
      (connects.each.imp ?_), fun id rel found => connects.kept id rel (kept id rel found),
    fun id absent => ?_, connects.nodes, connects.catalog,
    List.nodup_cons.2 ⟨fun mem => ?_, connects.fresh⟩, ?_⟩
  · rcases List.mem_cons.1 mem with rfl | mem
    · exact free
    · exact eq_none_of_kept kept (connects.free id mem)
  · intro other id connected
    rcases connected with ⟨absent, ends⟩
    exact ⟨eq_none_of_kept kept absent, ends⟩
  · rw [List.mem_cons, not_or] at absent
    exact (connects.elsewhere id absent.2).trans
      (Graph.relationship?_storeRelationship_of_ne absent.1)
  · have absent := connects.free _ mem
    cases absent.symm.trans new
  · have grown : (g.takeRelId.2.storeRelationship (.create g.takeRelId.1 slot.type source target
        slot.literals)).relationshipCount = g.relationshipCount + 1 :=
      Graph.relationshipCount_storeRelationship freeNow
    rw [connects.count, grown, List.length_cons]
    omega

/-- Creating a relationship for a slot cannot fail between live nodes. -/
theorem createSlotRel_eq_ok {nodes : List NodeId} {slot : RelSlot} {source target : NodeId}
    (typed : slot.type.isEmpty = false) (from_ : nodes[slot.source]? = some source)
    (to_ : nodes[slot.target]? = some target) (sourceLive : x.graph.hasNode source = true)
    (targetLive : x.graph.hasNode target = true) :
    ∃ x', createSlotRel nodes slot x = (.ok x.graph.takeRelId.1, x') ∧
      x'.graph = x.graph.takeRelId.2.storeRelationship
        (.create x.graph.takeRelId.1 slot.type source target slot.literals) := by
  have made := Graph.createRelationship_eq_ok typed sourceLive targetLive slot.literals
  generalize x.graph.takeRelId.2.storeRelationship
    (.create x.graph.takeRelId.1 slot.type source target slot.literals) = graph at made ⊢
  unfold createSlotRel
  rw [from_, to_, Option.getD_some, Option.getD_some,
    RefusableAction.bind_of_ok (onGraph_of_ok made)]
  exact ⟨_, rfl, rfl⟩

/-- Once the node slots are filled with live nodes, creating the relationships cannot
fail. -/
theorem mapM_createSlotRel {nodes : List NodeId} {slots : List RelSlot} (stored : x.graph.Stored)
    (source : ∀ slot ∈ slots, slot.source < nodes.length)
    (target : ∀ slot ∈ slots, slot.target < nodes.length)
    (typed : ∀ slot ∈ slots, slot.type.isEmpty = false)
    (live : ∀ id ∈ nodes, x.graph.hasNode id = true) :
    ∃ ids x', (slots.mapM (createSlotRel nodes) : Action (List RelId)) x = (.ok ids, x') ∧
      Connects nodes slots x.graph ids x'.graph := by
  induction slots generalizing x with
  | nil => exact ⟨[], x, rfl, .nil nodes x.graph⟩
  | cons slot rest ih =>
    rw [List.forall_mem_cons] at source target typed
    have from_ := List.getElem?_eq_getElem source.1
    have to_ := List.getElem?_eq_getElem target.1
    have sourceLive := live _ (List.getElem_mem source.1)
    have targetLive := live _ (List.getElem_mem target.1)
    obtain ⟨x₁, ran, graph⟩ := createSlotRel_eq_ok typed.1 from_ to_ sourceLive targetLive
    obtain ⟨ids, x', ran', connects⟩ := ih (x := x₁)
      (graph ▸ stored.storeRelationship _ _ _ typed.1) source.2 target.2 typed.2
      (by rw [graph]; exact live)
    rw [graph] at connects
    refine ⟨x.graph.takeRelId.1 :: ids, x', ?_,
      .created stored typed.1 from_ to_ sourceLive targetLive connects⟩
    rw [List.mapM_cons, RefusableAction.bind_of_ok ran, RefusableAction.bind_of_ok ran']
    rfl

/-! ## Creating -/

theorem create_of_error {e : ExecutionError} (refused : checkCreation x.graph p row = .error e) :
    create p row x = (.error e, x) := by
  rw [create, RefusableAction.bind_get, refused]
  rfl

/-- The node in a slot of a created pattern: the one the row fixes, or a new one
as the slot describes it. -/
def FilledFor (before after : Graph) (row : BindingRow) (slot : NodeSlot) (id : NodeId) : Prop :=
  (∀ fixed, slot.bound? row = some (.node fixed) → id = fixed) ∧
    (slot.bound? row = none → before.node? id = none ∧
      after.node? id = some (.create id slot.labels slot.literals))

/-- What it means that a pattern was created: every node slot has the node that
the row fixes or a new one, every relationship slot a new relationship between
the nodes of its ends, and nothing else was changed or added. -/
structure Creates (p : Pattern) (row : BindingRow) (before after : Graph) (m : Match) : Prop where
  nodes : List.Forall₂ (FilledFor before after row) p.nodes m.nodes
  rels : List.Forall₂ (ConnectedBy before after m.nodes) p.rels m.rels
  newNodes : (m.nodes.filter fun id => !before.hasNode id).Nodup
  newRels : m.rels.Nodup
  keptNodes : ∀ id node, before.node? id = some node → after.node? id = some node
  keptRels : ∀ id rel, before.relationship? id = some rel → after.relationship? id = some rel
  nodeCount : after.nodeCount =
    before.nodeCount + (p.nodes.filter fun slot => (slot.bound? row).isNone).length
  relationshipCount : after.relationshipCount = before.relationshipCount + p.rels.length

theorem fixedNode_eq_some {slot : NodeSlot} {id : NodeId} (fixed : fixedNode row slot = some id) :
    slot.bound? row = some (.node id) := by
  obtain ⟨entity, bound, node⟩ := Option.bind_eq_some_iff.1 fixed
  cases entity with
  | node _ =>
    cases node
    exact bound
  | relationship _ => cases node

/-- A slot that the row binds, but not to a node, is not usable. -/
theorem fixedNode_eq_none_iff {slot : NodeSlot} (usable : slot.Usable g row) :
    fixedNode row slot = none ↔ slot.bound? row = none := by
  constructor
  · intro open_
    cases bound : slot.bound? row with
    | none => rfl
    | some entity =>
      obtain ⟨id, rfl, _⟩ := usable entity bound
      rw [fixedNode, bound] at open_
      cases open_
  · intro bound
    rw [fixedNode, bound]
    rfl

theorem filter_fixedNode_isNone {slots : List NodeSlot}
    (usable : ∀ slot ∈ slots, slot.Usable g row) :
    slots.filter (fun slot => (fixedNode row slot).isNone) =
      slots.filter fun slot => (slot.bound? row).isNone := by
  refine List.filter_congr fun slot mem => ?_
  rw [Bool.eq_iff_iff, Option.isNone_iff_eq_none, Option.isNone_iff_eq_none]
  exact fixedNode_eq_none_iff (usable slot mem)

/-- Filling the slots with what the row fixes fills each of them as the row asks. -/
theorem Fills.filledFor {slots : List NodeSlot} {ids : List NodeId}
    (usable : ∀ slot ∈ slots, slot.Usable g row)
    (fills : Fills (slots.map fun slot => (slot, fixedNode row slot)) g ids g') :
    List.Forall₂ (FilledFor g g' row) slots ids := by
  have each := (List.forall₂_and_left slots ids).2 ⟨usable, List.forall₂_map_left_iff.1 fills.each⟩
  refine each.imp ?_
  intro slot id filled
  rcases filled with ⟨usable, bound, created⟩
  refine ⟨fun fixed same => bound fixed ?_, fun open_ => created ?_⟩
  · exact (congrArg (·.bind EntityRef.node?) same)
  · exact (fixedNode_eq_none_iff usable).2 open_

theorem Fills.nodeCount {slots : List NodeSlot} {ids : List NodeId}
    (usable : ∀ slot ∈ slots, slot.Usable g row)
    (fills : Fills (slots.map fun slot => (slot, fixedNode row slot)) g ids g') :
    g'.nodeCount = g.nodeCount + (slots.filter fun slot => (slot.bound? row).isNone).length := by
  rw [fills.count, List.filter_map, List.length_map, ← filter_fixedNode_isNone usable]
  rfl

/-- Filling node slots and then creating relationships between the nodes in them
creates the pattern. -/
theorem Fills.creates {before between after : Graph} {m : Match}
    (usable : ∀ slot ∈ p.nodes, slot.Usable before row)
    (fills : Fills (p.nodes.map fun slot => (slot, fixedNode row slot)) before m.nodes between)
    (connects : Connects m.nodes p.rels between m.rels after) :
    Creates p row before after m := by
  have nodesSame : ∀ id, after.node? id = between.node? id := fun id => by
    rw [Graph.node?, connects.nodes]
    rfl
  have relsSame : ∀ id, between.relationship? id = before.relationship? id := fun id => by
    rw [Graph.relationship?, fills.relationships]
    rfl
  refine ⟨(fills.filledFor usable).imp ?_, connects.each.imp ?_, fills.fresh, connects.fresh,
    fun id node found => (nodesSame id).trans (fills.kept id node found),
    fun id rel found => connects.kept id rel ((relsSame id).trans found), ?_, ?_⟩
  · intro slot id filled
    rcases filled with ⟨fixed, created⟩
    exact ⟨fixed, fun open_ => ⟨(created open_).1, (nodesSame id).trans (created open_).2⟩⟩
  · intro slot id connected
    rcases connected with ⟨free, ends⟩
    exact ⟨(relsSame id).symm.trans free, ends⟩
  · rw [← fills.nodeCount usable]
    exact congrArg (fun nodes => nodes.size) connects.nodes
  · rw [connects.count]
    exact congrArg (fun rels => rels.size + p.rels.length) fills.relationships

/-- Once the check is passed the node slots are filled, with what the row fixes
or with new nodes, and then the relationships are created. -/
theorem create_runs (stored : x.graph.Stored) (wellFormed : p.WellFormed)
    {bound : List (Option NodeId)} (checked : checkCreation x.graph p row = .ok bound) :
    ∃ (m : Match) (x₁ x' : Execution), create p row x = (.ok (p.bindRow row m.assignment), x') ∧
      Fills (p.nodes.map fun slot => (slot, fixedNode row slot)) x.graph m.nodes x₁.graph ∧
      Connects m.nodes p.rels x₁.graph m.rels x'.graph := by
  obtain ⟨rfl, usable, _⟩ := of_checkCreation checked
  have pairs : p.nodes.zip (p.nodes.map (fixedNode row)) =
      p.nodes.map fun slot => (slot, fixedNode row slot) := by
    rw [← List.zip_map', List.map_id']
  have live : ∀ pair ∈ p.nodes.map fun slot => (slot, fixedNode row slot), ∀ id,
      pair.2 = some id → x.graph.hasNode id = true := by
    intro pair mem id fixed
    obtain ⟨slot, inside, rfl⟩ := List.mem_map.1 mem
    obtain ⟨_, same, live⟩ := usable slot inside _ (fixedNode_eq_some fixed)
    cases same
    exact live
  have fills := fillNodes_spec stored live
  have sameLength := (fills.filledFor usable).length_eq
  have filled : (modifyGet (fillNodes (p.nodes.zip (p.nodes.map (fixedNode row)))) :
      Action (List NodeId)) x =
        (.ok (fillNodes (p.nodes.map fun slot => (slot, fixedNode row slot)) x).1,
          (fillNodes (p.nodes.map fun slot => (slot, fixedNode row slot)) x).2) := by
    rw [pairs]
    rfl
  generalize fillNodes (p.nodes.map fun slot => (slot, fixedNode row slot)) x = done
    at fills filled sameLength
  obtain ⟨nodes, x₁⟩ := done
  dsimp only at fills filled sameLength
  obtain ⟨rels, x', connected, connects⟩ := mapM_createSlotRel (stored.writes fills.writes)
    (sameLength ▸ wellFormed.source) (sameLength ▸ wellFormed.target) wellFormed.typed fills.live
  refine ⟨⟨nodes, rels⟩, x₁, x', ?_, fills, connects⟩
  have passed : (MonadExcept.ofExcept (checkCreation x.graph p row) :
      Action (List (Option NodeId))) x = (.ok (p.nodes.map (fixedNode row)), x) := by
    rw [checked]
    rfl
  rw [create, RefusableAction.bind_get, RefusableAction.bind_of_ok passed,
    RefusableAction.bind_of_ok filled, RefusableAction.bind_of_ok connected]
  rfl

/-- Once the check is passed the pattern is created. -/
theorem create_of_ok (stored : x.graph.Stored) (wellFormed : p.WellFormed)
    {bound : List (Option NodeId)} (checked : checkCreation x.graph p row = .ok bound) :
    ∃ m x', create p row x = (.ok (p.bindRow row m.assignment), x') ∧
      Creates p row x.graph x'.graph m := by
  obtain ⟨m, x₁, x', ran, fills, connects⟩ := create_runs stored wellFormed checked
  exact ⟨m, x', ran, fills.creates (of_checkCreation checked).2.1 connects⟩

end Execution

end PropertyGraph
