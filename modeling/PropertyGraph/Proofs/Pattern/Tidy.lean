import PropertyGraph.Proofs.Pattern.WellFormed

/-!
# Tidy patterns

Joining paths keeps house: a slot has no label and no literal key twice and no
null literal, a variable belongs to one slot, and the order of slots lists every
slot once. Reading a node opens a slot only for a variable that has none, and
otherwise adds to the slot that is there; reading a relationship adds a slot
under a variable that is not in use.
-/

namespace PropertyGraph

/-- Literals of a slot: no key twice and no null. -/
structure Gathered (literals : List (String × Value)) : Prop where
  keys : (literals.map Prod.fst).Nodup
  noNull : ∀ literal ∈ literals, literal.2.isNull = false

namespace Gathered

theorem nil : Gathered [] := ⟨List.nodup_nil, fun _ mem => by cases mem⟩

theorem concat {known : List (String × Value)} {literal : String × Value}
    (gathered : Gathered known) (new : ∀ other ∈ known, other.1 ≠ literal.1)
    (present : literal.2.isNull = false) : Gathered (known ++ [literal]) where
  keys := by
    rw [List.map_append, List.nodup_append]
    refine ⟨gathered.keys, List.pairwise_singleton _ _, fun key mem key' mem' same => ?_⟩
    obtain ⟨other, known, rfl⟩ := List.mem_map.1 mem
    exact new other known (same.trans (List.mem_singleton.1 mem'))
  noNull other mem := by
    rcases List.mem_append.1 mem with mem | mem
    · exact gathered.noNull other mem
    · rw [List.mem_singleton.1 mem]
      exact present

end Gathered

namespace Pattern

variable {p p' : Pattern}

theorem gather_gathered {var : String} {known literals all : List (String × Value)}
    (gathered : Gathered known) (read : gather var known literals = .ok all) : Gathered all := by
  induction literals generalizing known with
  | nil =>
    cases read
    exact gathered
  | cons literal rest ih =>
    unfold gather at read
    split at read
    · cases read
    · rename_i present
      split at read
      · rename_i missed
        refine ih (gathered.concat (fun other mem same => ?_) (Bool.eq_false_iff.2 present)) read
        exact List.find?_eq_none.1 missed other mem (beq_iff_eq.2 same)
      · split at read
        · exact ih gathered read
        · cases read

/-! ## Slots and their variables -/

/-- The slot is one of the pattern's. -/
def Has (p : Pattern) : SlotRef → Prop
  | .node position => position < p.nodes.length
  | .rel position => position < p.rels.length

theorem has_of_var? {place : SlotRef} {name : String} (named : p.var? place = some name) :
    p.Has place := by
  cases place with
  | node position =>
    obtain ⟨_, found, _⟩ := Option.bind_eq_some_iff.1 named
    exact (List.getElem?_eq_some_iff.1 found).1
  | rel position =>
    obtain ⟨_, found, _⟩ := Option.bind_eq_some_iff.1 named
    exact (List.getElem?_eq_some_iff.1 found).1

theorem var?_of_nodeSlot? {name : String} {slot : Nat} (known : p.nodeSlot? name = some slot) :
    p.var? (.node slot) = some name := by
  obtain ⟨inside, goesBy, -⟩ := List.findIdx?_eq_some_iff_getElem.1 known
  rw [var?, List.getElem?_eq_getElem inside]
  exact beq_iff_eq.1 goesBy

theorem var?_of_relSlot? {name : String} {slot : Nat} (known : p.relSlot? name = some slot) :
    p.var? (.rel slot) = some name := by
  obtain ⟨inside, goesBy, -⟩ := List.findIdx?_eq_some_iff_getElem.1 known
  rw [var?, List.getElem?_eq_getElem inside]
  exact beq_iff_eq.1 goesBy

/-- What joining paths keeps of slots. -/
structure Tidy (p : Pattern) : Prop where
  labels : ∀ slot ∈ p.nodes, slot.labels.Nodup
  nodeLiterals : ∀ slot ∈ p.nodes, Gathered slot.literals
  relLiterals : ∀ slot ∈ p.rels, Gathered slot.literals
  unique : ∀ place place' name, p.var? place = some name → p.var? place' = some name →
    place = place'
  listed : ∀ place, place ∈ p.order ↔ p.Has place
  once : p.order.Nodup

theorem Tidy.empty : empty.Tidy where
  labels _ mem := by cases mem
  nodeLiterals _ mem := by cases mem
  relLiterals _ mem := by cases mem
  unique place _ _ named := by cases place <;> cases named
  listed place := by cases place <;> simp [Pattern.empty, Has]
  once := List.nodup_nil

/-- Relationship slots have different variables. -/
theorem Tidy.nodup_rel_vars (tidy : p.Tidy) : (p.rels.filterMap RelSlot.var).Nodup := by
  refine List.pairwise_filterMap.2 (List.pairwise_iff_getElem.2 ?_)
  intro i j inside inside' before name named name' named' same
  have goesBy : ∀ k (bound : k < p.rels.length), p.var? (.rel k) = p.rels[k].var := by
    intro k bound
    rw [var?, List.getElem?_eq_getElem bound]
    rfl
  have place := tidy.unique _ _ name ((goesBy i inside).trans named)
    ((goesBy j inside').trans (same ▸ named'))
  exact Nat.ne_of_lt before (SlotRef.rel.inj place)

/-- No slot has the variable. -/
def Unused (p : Pattern) (name : String) : Prop := ∀ place, p.var? place ≠ some name

/-- A variable is unused if neither a node slot nor a relationship slot goes by it. -/
theorem unused_iff {name : String} :
    p.Unused name ↔ p.nodeSlot? name = none ∧ p.relSlot? name = none := by
  unfold nodeSlot? relSlot?
  rw [List.findIdx?_eq_none_iff, List.findIdx?_eq_none_iff]
  constructor
  · intro unused
    constructor
    · intro slot mem
      obtain ⟨position, inside, rfl⟩ := List.getElem_of_mem mem
      have other := unused (.node position)
      rw [var?, List.getElem?_eq_getElem inside] at other
      exact beq_eq_false_iff_ne.2 other
    · intro slot mem
      obtain ⟨position, inside, rfl⟩ := List.getElem_of_mem mem
      have other := unused (.rel position)
      rw [var?, List.getElem?_eq_getElem inside] at other
      exact beq_eq_false_iff_ne.2 other
  · intro absent place named
    rcases absent with ⟨nodes, rels⟩
    cases place with
    | node position =>
      obtain ⟨slot, found, has⟩ := Option.bind_eq_some_iff.1 named
      exact beq_eq_false_iff_ne.1 (nodes slot (List.mem_of_getElem? found)) has
    | rel position =>
      obtain ⟨slot, found, has⟩ := Option.bind_eq_some_iff.1 named
      exact beq_eq_false_iff_ne.1 (rels slot (List.mem_of_getElem? found)) has

/-! ## Opening a slot -/

theorem var?_openSlot (var : Option String) (place : SlotRef) :
    (p.openSlot var).2.var? place =
      if place = .node p.nodes.length then var else p.var? place := by
  cases place with
  | rel position => rfl
  | node position =>
    show (p.nodes ++ [_])[position]?.bind NodeSlot.var = _
    rcases Nat.lt_trichotomy position p.nodes.length with lt | rfl | gt
    · rw [List.getElem?_append_left lt, if_neg fun same => Nat.ne_of_lt lt (SlotRef.node.inj same)]
      rfl
    · rw [List.getElem?_concat_length, if_pos rfl]
      rfl
    · rw [List.getElem?_eq_none (by simp; omega),
        if_neg fun same => Nat.ne_of_gt gt (SlotRef.node.inj same), var?,
        List.getElem?_eq_none (Nat.le_of_lt gt)]

/-- Giving one more slot a variable that is not in use keeps variables apart. -/
theorem unique_of_fresh {place₀ : SlotRef} {var : Option String}
    (unique : ∀ place place' name, p.var? place = some name → p.var? place' = some name →
      place = place')
    (fresh : ∀ name, var = some name → p.Unused name)
    (vars : ∀ place, p'.var? place = if place = place₀ then var else p.var? place) :
    ∀ place place' name, p'.var? place = some name → p'.var? place' = some name →
      place = place' := by
  intro place place' name named named'
  rw [vars] at named named'
  split at named <;> split at named'
  · rename_i here here'
    exact here.trans here'.symm
  · exact (fresh name named place' named').elim
  · exact (fresh name named' place named).elim
  · exact unique place place' name named named'

/-- A slot opened for an unused variable keeps the slots apart, and it is listed once. -/
theorem Tidy.openSlot (tidy : p.Tidy) {var : Option String}
    (fresh : ∀ name, var = some name → p.Unused name) : (p.openSlot var).2.Tidy where
  labels slot mem := by
    rcases List.mem_append.1 mem with mem | mem
    · exact tidy.labels slot mem
    · rw [List.mem_singleton.1 mem]
      exact List.nodup_nil
  nodeLiterals slot mem := by
    rcases List.mem_append.1 mem with mem | mem
    · exact tidy.nodeLiterals slot mem
    · rw [List.mem_singleton.1 mem]
      exact .nil
  relLiterals := tidy.relLiterals
  unique := unique_of_fresh tidy.unique fresh (var?_openSlot var)
  listed place := by
    show place ∈ p.order ++ [.node p.nodes.length] ↔ _
    rw [List.mem_append, tidy.listed, List.mem_singleton]
    cases place with
    | rel position => simp [Has, Pattern.openSlot]
    | node position =>
      simp only [Has, Pattern.openSlot, SlotRef.node.injEq, List.length_append, List.length_cons,
        List.length_nil]
      omega
  once := by
    refine List.nodup_append.2 ⟨tidy.once, List.pairwise_singleton _ _, ?_⟩
    intro place mem place' mem' same
    rw [same, List.mem_singleton.1 mem'] at mem
    exact Nat.lt_irrefl _ ((tidy.listed _).1 mem)

/-! ## Reading nodes -/

theorem Tidy.slotFor {var : Option String} {slot : Nat} (tidy : p.Tidy)
    (read : p.slotFor var = .ok (slot, p')) : p'.Tidy := by
  rcases slotFor_cases read with ⟨opened, fresh⟩ | ⟨rfl, -⟩
  · have kept := tidy.openSlot fun name named => unused_iff.2 (fresh name named)
    rw [opened] at kept
    exact kept
  · exact tidy

/-- Describing a slot keeps its variable and its literals gathered, and adds no
label twice. -/
theorem describe_spec {slot described : NodeSlot} {node : NodeDescriptor}
    (read : describe slot node = .ok described) :
    described.var = slot.var ∧ (slot.labels.Nodup → described.labels.Nodup) ∧
      (Gathered slot.literals → Gathered described.literals) := by
  obtain ⟨literals, gathered, rfl⟩ := map_eq_ok_iff.1 read
  refine ⟨rfl, fun nodup => ?_, fun before => gather_gathered before gathered⟩
  dsimp only
  split
  · split
    · exact nodup
    · rename_i label _ unknown
      refine List.nodup_append.2 ⟨nodup, List.pairwise_singleton _ _, ?_⟩
      intro other mem label' mem' same
      rw [same, List.mem_singleton.1 mem'] at mem
      exact unknown (List.contains_iff_mem.2 mem)
  · exact nodup

theorem var?_set {slot : Nat} {old described : NodeSlot} (found : p.nodes[slot]? = some old)
    (same : described.var = old.var) (place : SlotRef) :
    ({ p with nodes := p.nodes.set slot described } : Pattern).var? place = p.var? place := by
  cases place with
  | rel position => rfl
  | node position =>
    show (p.nodes.set slot described)[position]?.bind NodeSlot.var = p.nodes[position]?.bind _
    rw [List.getElem?_set]
    split
    · rename_i here
      subst here
      rw [if_pos (List.getElem?_eq_some_iff.1 found).1, found]
      exact same
    · rfl

/-- Describing a slot leaves its variable and its place alone, and no label or literal in
it twice. -/
theorem Tidy.describe {slot : Nat} {old described : NodeSlot} {node : NodeDescriptor}
    (tidy : p.Tidy) (found : p.nodes[slot]? = some old)
    (read : Pattern.describe old node = .ok described) :
    Tidy { p with nodes := p.nodes.set slot described } := by
  obtain ⟨same, labels, literals⟩ := describe_spec read
  have mem := List.mem_of_getElem? found
  refine ⟨fun other inside => ?_, fun other inside => ?_, tidy.relLiterals, ?_, fun place => ?_,
    tidy.once⟩
  · rcases List.mem_or_eq_of_mem_set inside with inside | rfl
    · exact tidy.labels other inside
    · exact labels (tidy.labels old mem)
  · rcases List.mem_or_eq_of_mem_set inside with inside | rfl
    · exact tidy.nodeLiterals other inside
    · exact literals (tidy.nodeLiterals old mem)
  · intro place place' name named named'
    rw [var?_set found same] at named named'
    exact tidy.unique place place' name named named'
  · rw [tidy.listed]
    cases place with
    | rel position => rfl
    | node position => simp only [Has, List.length_set]

/-- Reading a node finds a slot or opens one, and describes it. -/
theorem of_addNode {node : NodeDescriptor} {slot : Nat}
    (read : p.addNode node = .ok (slot, p')) :
    ∃ q old described, p.slotFor node.var = .ok (slot, q) ∧ q.nodes[slot]? = some old ∧
      describe old node = .ok described ∧
      p' = { q with nodes := q.nodes.set slot described } := by
  obtain ⟨⟨found, q⟩, slotFor, read⟩ := of_bind_eq_ok read
  obtain ⟨described, describes, read⟩ := of_bind_eq_ok read
  cases read
  have inside := List.getElem?_eq_getElem (slotFor_spec slotFor).2
  rw [inside] at describes
  exact ⟨q, _, described, slotFor, inside, describes, rfl⟩

theorem Tidy.addNode {node : NodeDescriptor} {slot : Nat} (tidy : p.Tidy)
    (read : p.addNode node = .ok (slot, p')) : p'.Tidy := by
  obtain ⟨q, old, described, slotFor, found, describes, rfl⟩ := of_addNode read
  exact (tidy.slotFor slotFor).describe found describes

/-! ## Reading relationships -/

theorem unused_of_checkRelVar {var : Option String} (checked : p.checkRelVar var = .ok ()) :
    ∀ name, var = some name → p.Unused name := by
  intro name same
  subst same
  rw [checkRelVar] at checked
  split at checked
  · cases checked
  · rename_i noNode
    split at checked
    · cases checked
    · rename_i noRel
      exact unused_iff.2 ⟨Option.not_isSome_iff_eq_none.1 noNode,
        Option.not_isSome_iff_eq_none.1 noRel⟩

theorem var?_withRel (slot : RelSlot) (order : List SlotRef) (place : SlotRef) :
    ({ p with rels := p.rels ++ [slot], order } : Pattern).var? place =
      if place = .rel p.rels.length then slot.var else p.var? place := by
  cases place with
  | node position => rfl
  | rel position =>
    show (p.rels ++ [slot])[position]?.bind RelSlot.var = _
    rcases Nat.lt_trichotomy position p.rels.length with lt | rfl | gt
    · rw [List.getElem?_append_left lt, if_neg fun same => Nat.ne_of_lt lt (SlotRef.rel.inj same)]
      rfl
    · rw [List.getElem?_concat_length, if_pos rfl]
      rfl
    · rw [List.getElem?_eq_none (by simp; omega),
        if_neg fun same => Nat.ne_of_gt gt (SlotRef.rel.inj same), var?,
        List.getElem?_eq_none (Nat.le_of_lt gt)]

/-- A relationship that is read gets a slot of its own, listed where the order is marked.
-/
theorem Tidy.addRel {rel : RelDescriptor} {left right mark : Nat} (tidy : p.Tidy)
    (inside : mark ≤ p.order.length) (read : p.addRel rel left right mark = .ok p') : p'.Tidy := by
  obtain ⟨literals, -, checked, gathered, rfl⟩ := of_addRel read
  refine ⟨tidy.labels, tidy.nodeLiterals, fun slot mem => ?_,
    unique_of_fresh tidy.unique (unused_of_checkRelVar checked) (var?_withRel _ _),
    fun place => ?_, ?_⟩
  · rcases List.mem_append.1 mem with mem | mem
    · exact tidy.relLiterals slot mem
    · rw [List.mem_singleton.1 mem]
      exact gather_gathered .nil gathered
  · show place ∈ p.order.insertIdx mark (.rel p.rels.length) ↔ _
    rw [List.mem_insertIdx inside, tidy.listed]
    cases place with
    | node position => simp [Has]
    | rel position =>
      simp only [Has, SlotRef.rel.injEq, List.length_append, List.length_cons, List.length_nil]
      omega
  · refine (List.perm_insertIdx _ _ inside).nodup_iff.2 ?_
    refine List.nodup_cons.2 ⟨fun mem => ?_, tidy.once⟩
    exact Nat.lt_irrefl _ ((tidy.listed _).1 mem)

/-! ## Reading paths -/

/-- Reading a node lists no fewer slots than before. -/
theorem length_order_addNode {node : NodeDescriptor} {slot : Nat}
    (read : p.addNode node = .ok (slot, p')) : p.order.length ≤ p'.order.length := by
  obtain ⟨q, _, _, slotFor, _, _, rfl⟩ := of_addNode read
  show p.order.length ≤ q.order.length
  rcases slotFor_cases slotFor with ⟨opened, -⟩ | ⟨rfl, -⟩
  · cases opened
    simp
  · exact Nat.le_refl _

theorem Tidy.addHops {hops : List (RelDescriptor × NodeDescriptor)} {left : Nat} (tidy : p.Tidy)
    (read : p.addHops left hops = .ok p') : p'.Tidy := by
  induction hops generalizing p left with
  | nil =>
    cases read
    exact tidy
  | cons hop rest ih =>
    obtain ⟨⟨right, q⟩, node, read⟩ := of_bind_eq_ok read
    obtain ⟨q', rel, read⟩ := of_bind_eq_ok read
    exact ih ((tidy.addNode node).addRel (length_order_addNode node) rel) read

theorem Tidy.addPath {path : Path} (tidy : p.Tidy) (read : p.addPath path = .ok p') : p'.Tidy := by
  unfold Pattern.addPath at read
  split at read
  · split at read
    · cases read
      exact tidy
    · cases read
  · split at read
    · cases read
    · obtain ⟨⟨left, q⟩, node, read⟩ := of_bind_eq_ok read
      exact (tidy.addNode node).addHops read

/-- Paths that form a pattern form a tidy one. -/
theorem tidy_of_ofPaths {paths : List Path} (read : ofPaths paths = .ok p) : p.Tidy :=
  of_ofPaths .empty (fun _ tidy added => tidy.addPath added) read

end Pattern

end PropertyGraph
