import PropertyGraph.Pattern.OfPaths
import PropertyGraph.Proofs.Action

/-!
# Well-formed patterns

What paths are joined into is well-formed: every relationship slot has a type
and its ends are slots of the pattern. Reading a node adds at most one slot and
moves none, and reading a relationship adds one between slots that are there.
-/

namespace PropertyGraph

namespace RelDescriptor

/-- Where a relationship starts that stands between a left and a right place. -/
def source (rel : RelDescriptor) (left right : Nat) : Nat :=
  match rel.direction with
  | .outgoing => left
  | .incoming => right

/-- Where a relationship ends that stands between a left and a right place. -/
def target (rel : RelDescriptor) (left right : Nat) : Nat :=
  match rel.direction with
  | .outgoing => right
  | .incoming => left

variable {rel : RelDescriptor} {left right bound : Nat}

theorem source_lt (leftInside : left < bound) (rightInside : right < bound) :
    rel.source left right < bound := by
  unfold source
  split <;> assumption

theorem target_lt (leftInside : left < bound) (rightInside : right < bound) :
    rel.target left right < bound := by
  unfold target
  split <;> assumption

end RelDescriptor

namespace Pattern

/-- The ends of relationship slots are node slots, and relationship slots have
types. -/
structure WellFormed (p : Pattern) : Prop where
  source : ∀ slot ∈ p.rels, slot.source < p.nodes.length
  target : ∀ slot ∈ p.rels, slot.target < p.nodes.length
  typed : ∀ slot ∈ p.rels, slot.type.isEmpty = false

variable {p p' : Pattern}

theorem WellFormed.empty : empty.WellFormed where
  source _ mem := by cases mem
  target _ mem := by cases mem
  typed _ mem := by cases mem

/-! ## Reading nodes -/

/-- More node slots and the same relationship slots. -/
structure Widens (p p' : Pattern) : Prop where
  nodes : p.nodes.length ≤ p'.nodes.length
  rels : p'.rels = p.rels

theorem WellFormed.widen (wellFormed : p.WellFormed) (widens : p.Widens p') :
    p'.WellFormed where
  source slot mem := Nat.lt_of_lt_of_le (wellFormed.source slot (widens.rels ▸ mem)) widens.nodes
  target slot mem := Nat.lt_of_lt_of_le (wellFormed.target slot (widens.rels ▸ mem)) widens.nodes
  typed slot mem := wellFormed.typed slot (widens.rels ▸ mem)

theorem openSlot_spec (p : Pattern) (var : Option String) :
    p.Widens (p.openSlot var).2 ∧ (p.openSlot var).1 < (p.openSlot var).2.nodes.length := by
  refine ⟨⟨?_, rfl⟩, ?_⟩ <;> simp [openSlot]

/-- A node descriptor gets a slot of its own, unless its variable has one. -/
theorem slotFor_cases {var : Option String} {slot : Nat} (read : p.slotFor var = .ok (slot, p')) :
    (p.openSlot var = (slot, p') ∧
      ∀ name, var = some name → p.nodeSlot? name = none ∧ p.relSlot? name = none) ∨
    (p' = p ∧ ∃ name, var = some name ∧ p.nodeSlot? name = some slot) := by
  unfold slotFor at read
  split at read
  · exact .inl ⟨Except.ok.inj read, fun name none => by cases none⟩
  · rename_i name
    split at read
    · cases read
    · rename_i noRel
      split at read
      · rename_i known
        cases read
        exact .inr ⟨rfl, name, rfl, known⟩
      · rename_i noNode
        refine .inl ⟨Except.ok.inj read, fun other same => ?_⟩
        cases same
        exact ⟨noNode, Option.not_isSome_iff_eq_none.1 noRel⟩

theorem slotFor_spec {var : Option String} {slot : Nat} (read : p.slotFor var = .ok (slot, p')) :
    p.Widens p' ∧ slot < p'.nodes.length := by
  rcases slotFor_cases read with ⟨opened, -⟩ | ⟨rfl, name, -, known⟩
  · have spec := p.openSlot_spec var
    rw [opened] at spec
    exact spec
  · exact ⟨⟨Nat.le_refl _, rfl⟩, (List.findIdx?_eq_some_iff_getElem.1 known).1⟩

theorem addNode_spec {node : NodeDescriptor} {slot : Nat}
    (read : p.addNode node = .ok (slot, p')) : p.Widens p' ∧ slot < p'.nodes.length := by
  obtain ⟨⟨found, q⟩, slotFor, read⟩ := of_bind_eq_ok read
  obtain ⟨described, _, read⟩ := of_bind_eq_ok read
  cases read
  obtain ⟨widens, inside⟩ := slotFor_spec slotFor
  exact ⟨⟨by simpa using widens.nodes, widens.rels⟩, by simpa using inside⟩

/-! ## Reading relationships -/

theorem WellFormed.withRel (wellFormed : p.WellFormed) {slot : RelSlot}
    (source : slot.source < p.nodes.length) (target : slot.target < p.nodes.length)
    (typed : slot.type.isEmpty = false) (order : List SlotRef) :
    WellFormed { p with rels := p.rels ++ [slot], order } := by
  have each : ∀ {P : RelSlot → Prop}, (∀ old ∈ p.rels, P old) → P slot →
      ∀ rel ∈ p.rels ++ [slot], P rel := by
    intro P old new rel mem
    rcases List.mem_append.1 mem with mem | mem
    · exact old rel mem
    · cases List.mem_singleton.1 mem
      exact new
  exact ⟨each wellFormed.source source, each wellFormed.target target, each wellFormed.typed typed⟩

/-- Reading a relationship adds one slot and lists it. -/
theorem of_addRel {rel : RelDescriptor} {left right mark : Nat}
    (read : p.addRel rel left right mark = .ok p') :
    ∃ literals, rel.type.isEmpty = false ∧ p.checkRelVar rel.var = .ok () ∧
      gather (rel.var.getD "_") [] rel.literals = .ok literals ∧
      p' = { p with
        rels := p.rels ++
          [⟨rel.var, rel.type, rel.source left right, rel.target left right, literals⟩]
        order := p.order.insertIdx mark (.rel p.rels.length) } := by
  unfold Pattern.addRel at read
  by_cases typed : rel.type.isEmpty = true
  · rw [if_pos typed] at read
    cases read
  · rw [if_neg typed] at read
    obtain ⟨⟨⟩, unused, read⟩ := of_bind_eq_ok read
    obtain ⟨literals, gathered, read⟩ := of_bind_eq_ok read
    refine ⟨literals, Bool.eq_false_iff.2 typed, unused, gathered, ?_⟩
    unfold RelDescriptor.source RelDescriptor.target
    cases direction : rel.direction <;> rw [direction] at read <;> cases read <;> rfl

theorem WellFormed.addRel (wellFormed : p.WellFormed) {rel : RelDescriptor}
    {left right mark : Nat} (leftInside : left < p.nodes.length)
    (rightInside : right < p.nodes.length) (read : p.addRel rel left right mark = .ok p') :
    p'.WellFormed ∧ p'.nodes = p.nodes := by
  obtain ⟨literals, typed, -, -, rfl⟩ := of_addRel read
  exact ⟨wellFormed.withRel (RelDescriptor.source_lt leftInside rightInside)
    (RelDescriptor.target_lt leftInside rightInside) typed _, rfl⟩

/-! ## Reading paths -/

theorem WellFormed.addHops {hops : List (RelDescriptor × NodeDescriptor)} {left : Nat}
    (wellFormed : p.WellFormed) (inside : left < p.nodes.length)
    (read : p.addHops left hops = .ok p') : p'.WellFormed := by
  induction hops generalizing p left with
  | nil =>
    cases read
    exact wellFormed
  | cons hop rest ih =>
    obtain ⟨⟨right, q⟩, node, read⟩ := of_bind_eq_ok read
    obtain ⟨q', rel, read⟩ := of_bind_eq_ok read
    obtain ⟨widens, rightInside⟩ := addNode_spec node
    obtain ⟨wellFormed', same⟩ := (wellFormed.widen widens).addRel
      (Nat.lt_of_lt_of_le inside widens.nodes) rightInside rel
    exact ih wellFormed' (same ▸ rightInside) read

theorem WellFormed.addPath {path : Path} (wellFormed : p.WellFormed)
    (read : p.addPath path = .ok p') : p'.WellFormed := by
  unfold Pattern.addPath at read
  split at read
  · split at read
    · cases read
      exact wellFormed
    · cases read
  · split at read
    · cases read
    · obtain ⟨⟨left, q⟩, node, read⟩ := of_bind_eq_ok read
      obtain ⟨widens, inside⟩ := addNode_spec node
      exact (wellFormed.widen widens).addHops inside read

/-- What the empty pattern has and reading a path keeps, every pattern of paths has. -/
theorem of_ofPaths {P : Pattern → Prop} (empty : P .empty)
    (addPath : ∀ {p p'} (path : Path), P p → p.addPath path = .ok p' → P p')
    {paths : List Path} (read : ofPaths paths = .ok p) : P p := by
  unfold ofPaths at read
  split at read
  · cases read
  · have walk : ∀ (rest : List Path) (q : Pattern), P q → rest.foldlM Pattern.addPath q = .ok p →
        P p := by
      intro rest
      induction rest with
      | nil =>
        intro q held read
        cases read
        exact held
      | cons path rest ih =>
        intro q held read
        rw [List.foldlM_cons] at read
        obtain ⟨q', added, read⟩ := of_bind_eq_ok read
        exact ih q' (addPath path held added) read
    exact walk paths _ empty read

/-- Paths that form a pattern form a well-formed one. -/
theorem wellFormed_of_ofPaths {paths : List Path} (read : ofPaths paths = .ok p) :
    p.WellFormed :=
  of_ofPaths .empty (fun _ wellFormed added => wellFormed.addPath added) read

end Pattern

end PropertyGraph
