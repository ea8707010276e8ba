import PropertyGraph.Proofs.Match.Exactness
import PropertyGraph.Proofs.Pattern.Literals
import PropertyGraph.Proofs.Value.Order

/-!
# What a pattern says

A pattern says what its paths say. A slot accepts exactly the entities of which all
that is said of it holds, although of literals equal in index order it keeps only the
first: no value is equal to one of them and not to the other. So entities match the
pattern exactly if they are as every descriptor of the paths says.
-/

namespace PropertyGraph

/-! ## Descriptors -/

/-- The properties have a value equal to the literal's under its key. -/
def Properties.Meets (properties : Properties) (literal : String × Value) : Prop :=
  ∃ actual, properties.get? literal.1 = some actual ∧ actual.equals literal.2 = true

/-- What the descriptor says of a node. -/
structure NodeDescriptor.HoldsOf (d : NodeDescriptor) (node : Node) : Prop where
  label : ∀ label, d.label = some label → node.hasLabel label = true
  literals : ∀ literal ∈ d.literals, node.properties.Meets literal

/-- What the descriptor says of a relationship, its ends apart. -/
structure RelDescriptor.HoldsOf (d : RelDescriptor) (rel : Relationship) : Prop where
  type : rel.type = d.type
  literals : ∀ literal ∈ d.literals, rel.properties.Meets literal

/-- The entities are as the mentions say: in the slot of every node that is mentioned
is a live node that the descriptor holds of, and for every relationship there is a live
one that its descriptor holds of between the nodes in the slots of its ends, none of
them twice, and all of them what the row has for the variables. -/
structure Match.Satisfies (g : Graph) (row : BindingRow) (nodes : List NodeMention)
    (rels : List RelMention) (m : Match) : Prop where
  node : ∀ mention ∈ nodes, ∃ id node, m.nodes[mention.slot]? = some id ∧
    g.node? id = some node ∧ mention.descriptor.HoldsOf node ∧
    ∀ entity, mention.descriptor.var.bind row.get? = some entity → entity = .node id
  rel : List.Forall₂ (fun mention id => ∃ rel, g.relationship? id = some rel ∧
    mention.descriptor.HoldsOf rel ∧ m.nodes[mention.source]? = some rel.source ∧
    m.nodes[mention.target]? = some rel.target ∧
    ∀ entity, mention.descriptor.var.bind row.get? = some entity → entity = .relationship id)
    rels m.rels
  distinct : m.rels.Nodup

theorem Properties.satisfy_iff {properties : Properties} {literals : List (String × Value)} :
    properties.satisfy literals = true ↔ ∀ literal ∈ literals, properties.Meets literal := by
  rw [satisfy, List.all_eq_true]
  refine forall₂_congr fun literal _ => ?_
  unfold Meets
  cases properties.get? literal.1 <;> simp

/-- Properties meet literals alike whose values are equal in index order. -/
theorem Properties.meets_valueBlind (properties : Properties) : ValueBlind properties.Meets := by
  intro a b key equal
  unfold Meets Value.equals
  simp only [key, Value.compare?_congr_right equal]

/-! ## Slots -/

/-- A slot accepts a node exactly if all that is said of the slot holds of it. -/
theorem NodeSlot.Collects.accepts_iff {slot : NodeSlot} {descriptors : List NodeDescriptor}
    (collects : slot.Collects descriptors) (node : Node) :
    slot.accepts node = true ↔ ∀ d ∈ descriptors, d.HoldsOf node := by
  rw [accepts, Bool.and_eq_true, List.all_eq_true, Properties.satisfy_iff,
    collects.literals.forall_iff node.properties.meets_valueBlind]
  constructor
  · intro accepted d mem
    obtain ⟨labels, literals⟩ := accepted
    exact ⟨fun label given => labels label ((collects.labels label).2 ⟨d, mem, given⟩),
      fun literal given => literals literal (List.mem_flatMap.2 ⟨d, mem, given⟩)⟩
  · intro each
    refine ⟨fun label known => ?_, fun literal given => ?_⟩
    · obtain ⟨d, mem, given⟩ := (collects.labels label).1 known
      exact (each d mem).label label given
    · obtain ⟨d, mem, given⟩ := List.mem_flatMap.1 given
      exact (each d mem).literals literal given

/-- A slot accepts a relationship exactly if what is said of it holds of it. -/
theorem RelMention.Opens.accepts_iff {m : RelMention} {slot : RelSlot} (opens : m.Opens slot)
    (rel : Relationship) : slot.accepts rel = true ↔ m.descriptor.HoldsOf rel := by
  rw [RelSlot.accepts, Bool.and_eq_true, beq_iff_eq, Properties.satisfy_iff,
    opens.literals.forall_iff rel.properties.meets_valueBlind, opens.type]
  exact ⟨fun accepted => ⟨accepted.1, accepted.2⟩, fun holds => ⟨holds.type, holds.literals⟩⟩

namespace Pattern

variable {p : Pattern}

namespace Records

variable {nodes : List NodeMention} {rels : List RelMention}

theorem accepts_iff (records : p.Records nodes rels) {k : Nat} {slot : NodeSlot}
    (found : p.nodes[k]? = some slot) (node : Node) :
    slot.accepts node = true ↔ ∀ m ∈ nodes, m.slot = k → m.descriptor.HoldsOf node := by
  rw [(records.collects k slot found).accepts_iff]
  constructor
  · intro each m mem here
    exact each _ (mem_said_iff.2 ⟨m, mem, here, rfl⟩)
  · intro each d mem
    obtain ⟨m, inside, here, rfl⟩ := mem_said_iff.1 mem
    exact each m inside here

theorem satisfies_of_holds (records : p.Records nodes rels) {g : Graph} {row : BindingRow}
    {m : Match} (holds : m.Holds g p row) : m.Satisfies g row nodes rels := by
  obtain ⟨lengths, opens⟩ := List.forall₂_iff_get.1 records.rels
  refine ⟨fun mention mem => ?_, List.forall₂_iff_get.2 ⟨?_, fun i inside inside' => ?_⟩,
    holds.distinct⟩
  · have inside := records.inside mention mem
    have found := List.getElem?_eq_getElem inside
    have has := List.getElem?_eq_getElem (holds.nodesLength ▸ inside)
    obtain ⟨⟨node, live, accepted⟩, bound⟩ := holds.node mention.slot _ _ found has
    refine ⟨_, node, has, live, (records.accepts_iff found node).1 accepted mention mem rfl, ?_⟩
    rw [← records.var?_node mem, Pattern.var?, found]
    exact bound
  · exact lengths.trans holds.relsLength.symm
  · have opens := opens i inside (lengths ▸ inside)
    obtain ⟨⟨rel, live, accepted, ends⟩, bound⟩ := holds.rel i _ _
      (List.getElem?_eq_getElem (lengths ▸ inside)) (List.getElem?_eq_getElem inside')
    refine ⟨rel, live, (opens.accepts_iff rel).1 accepted, ?_⟩
    rw [← opens.source, ← opens.target, ← opens.var]
    exact ⟨ends.1, ends.2, bound⟩

/-- What satisfies every mention of a slot satisfies the slot, so it is a match of the
pattern. -/
theorem holds_of_satisfies (records : p.Records nodes rels) {g : Graph} {row : BindingRow}
    {m : Match} (nodesLength : m.nodes.length = p.nodes.length)
    (satisfies : m.Satisfies g row nodes rels) : m.Holds g p row := by
  obtain ⟨lengths, opens⟩ := List.forall₂_iff_get.1 records.rels
  obtain ⟨lengths', each⟩ := List.forall₂_iff_get.1 satisfies.rel
  refine ⟨nodesLength, lengths'.symm.trans lengths, fun position slot id found has => ?_,
    fun position slot id found has => ?_, satisfies.distinct⟩
  · obtain ⟨mention, mem, rfl⟩ := records.mentioned position (List.getElem?_eq_some_iff.1 found).1
    obtain ⟨id', node, has', live, -, bound⟩ := satisfies.node mention mem
    cases has.symm.trans has'
    rw [← records.var?_node mem, Pattern.var?, found] at bound
    refine ⟨⟨node, live, (records.accepts_iff found node).2 fun other mem' here => ?_⟩, bound⟩
    -- Every mention of the slot speaks of the one node in it.
    obtain ⟨id', node', has', live', holds, -⟩ := satisfies.node other mem'
    rw [here] at has'
    cases has.symm.trans has'
    cases live.symm.trans live'
    exact holds
  · obtain ⟨inside, rfl⟩ := List.getElem?_eq_some_iff.1 found
    obtain ⟨inside', rfl⟩ := List.getElem?_eq_some_iff.1 has
    have opens := opens position (lengths ▸ inside) inside
    obtain ⟨rel, live, holds, source, target, bound⟩ := each position (lengths ▸ inside) inside'
    rw [← opens.source] at source
    rw [← opens.target] at target
    rw [← opens.var] at bound
    exact ⟨⟨rel, live, (opens.accepts_iff rel).2 holds, source, target⟩, bound⟩

end Records

/-! ## Patterns of paths -/

/-- The pattern says what the mentions say. Two mentions of nodes share a slot exactly
if they have one variable, and every slot has a mention. A node slot accepts the nodes
that all its mentions hold of. The relationship slots are those of the relationship
mentions in order, each between the slots of its mention, and accept what it holds of.
So the matches of the pattern are the entities that are as the mentions say. -/
structure Renders (p : Pattern) (nodes : List NodeMention) (rels : List RelMention) : Prop where
  shared : nodes.Pairwise fun m m' => m.slot = m'.slot ↔
    m.descriptor.var = m'.descriptor.var ∧ m.descriptor.var ≠ none
  mentioned : ∀ k : Nat, k < p.nodes.length ↔ ∃ m ∈ nodes, m.slot = k
  acceptsNode : ∀ (k : Nat) (slot : NodeSlot), p.nodes[k]? = some slot → ∀ node,
    slot.accepts node = true ↔ ∀ m ∈ nodes, m.slot = k → m.descriptor.HoldsOf node
  acceptsRel : List.Forall₂ (fun m slot => slot.source = m.source ∧ slot.target = m.target ∧
    ∀ rel, slot.accepts rel = true ↔ m.descriptor.HoldsOf rel) rels p.rels
  holds : ∀ (g : Graph) (row : BindingRow) (m : Match),
    m.Holds g p row ↔ m.nodes.length = p.nodes.length ∧ m.Satisfies g row nodes rels

theorem Records.renders {nodes : List NodeMention} {rels : List RelMention}
    (records : p.Records nodes rels) : p.Renders nodes rels where
  shared := records.shared
  mentioned k := by
    constructor
    · exact records.mentioned k
    · intro mentioned
      obtain ⟨m, mem, rfl⟩ := mentioned
      exact records.inside m mem
  acceptsNode k slot found := records.accepts_iff found
  acceptsRel := records.rels.imp fun m slot opens =>
    ⟨opens.source, opens.target, opens.accepts_iff⟩
  holds g row m := by
    constructor
    · exact fun holds => ⟨holds.nodesLength, records.satisfies_of_holds holds⟩
    · exact fun given => records.holds_of_satisfies given.1 given.2

/-- Paths that form a pattern mean what the pattern means: their nodes can be given
slots so that the pattern says of the slots what the paths say of the nodes. -/
theorem ofPaths_preserves_meaning {paths : List Path} (read : ofPaths paths = .ok p) :
    ∃ seated : List SeatedPath, seated.map SeatedPath.path = paths ∧
      p.Renders (seated.flatMap SeatedPath.nodes) (seated.flatMap SeatedPath.rels) := by
  obtain ⟨seated, same, records⟩ := Records.of_ofPaths read
  exact ⟨seated, same, records.renders⟩

theorem ofPaths_preserves_meaning_of_repeated_variable :
    let person : NodeDescriptor := ⟨some "a", some "Person", [("v", .int 1)]⟩
    let admin : NodeDescriptor := ⟨some "a", some "Admin", [("v", .float (.ofInt 1))]⟩
    let paths : List Path := [⟨[person, ⟨none, none, []⟩], [⟨none, "KNOWS", .incoming, []⟩]⟩,
      ⟨[⟨none, none, []⟩, admin], [⟨some "r", "OWNS", .outgoing, []⟩]⟩]
    let p : Pattern := ⟨[⟨some "a", ["Person", "Admin"], [("v", .int 1)]⟩, ⟨none, [], []⟩,
        ⟨none, [], []⟩], [⟨none, "KNOWS", 1, 0, []⟩, ⟨some "r", "OWNS", 2, 0, []⟩],
      [.node 0, .rel 0, .node 1, .node 2, .rel 1]⟩
    ofPaths paths = .ok p ∧ ∃ seated : List SeatedPath, seated.map SeatedPath.path = paths ∧
      p.Renders (seated.flatMap SeatedPath.nodes) (seated.flatMap SeatedPath.rels) := by
  intro person admin paths p
  have read : ofPaths paths = .ok p := by decide +kernel
  exact ⟨read, ofPaths_preserves_meaning read⟩

end Pattern

end PropertyGraph
