import PropertyGraph.Match.Search

/-!
# Partial assignments

During a search the assignment is partial. It agrees with the account kept by
the plan if exactly the bound node slots and the placed relationship slots are
filled, and it is sound if what is filled in fits: nodes and relationships are
live and accepted, the ends of each relationship are in the slots of its ends,
and no relationship is in two slots. One assignment lies within another if the
second fills every slot of the first with the same entity.
-/

namespace PropertyGraph

/-! ## Lists of slots -/

section Slots

variable {α : Type} {xs ys : List (Option α)}

theorem slot_set {i q : Nat} {x : Option α} (inside : i < xs.length) :
    ((xs.set i x)[q]?).join = if q = i then x else (xs[q]?).join := by
  rw [List.getElem?_set]
  by_cases same : i = q
  · subst same
    simp [inside]
  · rw [if_neg same, if_neg (Ne.symm same)]

/-- Putting into a slot what is in it changes nothing. -/
theorem set_slot (xs : List (Option α)) (i : Nat) : xs.set i (xs[i]?).join = xs := by
  refine List.ext_getElem? fun q => ?_
  rw [List.getElem?_set]
  split
  · rename_i here
    subst here
    split
    · rename_i inside
      rw [List.getElem?_eq_getElem inside]
      rfl
    · rename_i outside
      rw [List.getElem?_eq_none (Nat.le_of_not_lt outside)]
  · rfl

theorem eq_of_slots (lengths : xs.length = ys.length)
    (same : ∀ q : Nat, (xs[q]?).join = (ys[q]?).join) : xs = ys := by
  refine List.ext_getElem lengths fun q inside inside' => ?_
  have alike := same q
  rw [List.getElem?_eq_getElem inside, List.getElem?_eq_getElem inside'] at alike
  exact alike

end Slots

namespace Assignment

variable {a b c : Assignment}

/-! ## Filling slots -/

theorem mem_rels_iff {id : RelId} : some id ∈ a.rels ↔ ∃ position, a.rel? position = some id := by
  simp only [List.mem_iff_getElem?, rel?, Option.join_eq_some_iff]

theorem node?_setNode {slot q : Nat} {node : Option NodeId} (inside : slot < a.nodes.length) :
    (a.setNode slot node).node? q = if q = slot then node else a.node? q :=
  slot_set inside

theorem rel?_setRel {position q : Nat} {rel : Option RelId} (inside : position < a.rels.length) :
    (a.setRel position rel).rel? q = if q = position then rel else a.rel? q :=
  slot_set inside

theorem setNode_node? (a : Assignment) (slot : Nat) : a.setNode slot (a.node? slot) = a :=
  congrArg (fun nodes => { a with nodes }) (set_slot a.nodes slot)

theorem setNode_setNode (a : Assignment) (slot : Nat) (x y : Option NodeId) :
    (a.setNode slot x).setNode slot y = a.setNode slot y := by
  rw [setNode, setNode, setNode, List.set_set]

theorem ext_slots (nodesLength : a.nodes.length = b.nodes.length)
    (relsLength : a.rels.length = b.rels.length) (node : ∀ q, a.node? q = b.node? q)
    (rel : ∀ q, a.rel? q = b.rel? q) : a = b := by
  have nodes : a.nodes = b.nodes := eq_of_slots nodesLength node
  have rels : a.rels = b.rels := eq_of_slots relsLength rel
  cases a
  cases b
  cases nodes
  cases rels
  rfl

/-! ## Agreement with the account of a plan -/

/-- Exactly the slots that the account names are filled. -/
structure FilledAt (p : Pattern) (s : Progress) (a : Assignment) : Prop where
  nodesLength : a.nodes.length = p.nodes.length
  relsLength : a.rels.length = p.rels.length
  node_iff : ∀ slot, (a.node? slot).isSome = true ↔ slot ∈ s.bound
  rel_iff : ∀ position, (a.rel? position).isSome = true ↔ position ∈ s.placed

theorem vacant_filledAt (p : Pattern) : FilledAt p .start (vacant p) where
  nodesLength := List.length_map _
  relsLength := List.length_map _
  node_iff slot := by
    rw [node?, vacant, List.getElem?_map]
    cases p.nodes[slot]? <;> simp [Progress.start]
  rel_iff position := by
    rw [rel?, vacant, List.getElem?_map]
    cases p.rels[position]? <;> simp [Progress.start]

theorem FilledAt.vacantNode {p : Pattern} {s : Progress} (filled : a.FilledAt p s) {slot : Nat}
    (unbound : slot ∉ s.bound) : a.node? slot = none :=
  Option.not_isSome_iff_eq_none.1 fun some => unbound ((filled.node_iff slot).1 some)

theorem FilledAt.vacantRel {p : Pattern} {s : Progress} (filled : a.FilledAt p s) {position : Nat}
    (waiting : position ∉ s.placed) : a.rel? position = none :=
  Option.not_isSome_iff_eq_none.1 fun some => waiting ((filled.rel_iff position).1 some)

theorem FilledAt.boundNode {p : Pattern} {s : Progress} (filled : a.FilledAt p s) {slot : Nat}
    (bound : slot ∈ s.bound) : ∃ id, a.node? slot = some id :=
  Option.isSome_iff_exists.1 ((filled.node_iff slot).2 bound)

theorem FilledAt.placedRel {p : Pattern} {s : Progress} (filled : a.FilledAt p s) {position : Nat}
    (placed : position ∈ s.placed) : ∃ id, a.rel? position = some id :=
  Option.isSome_iff_exists.1 ((filled.rel_iff position).2 placed)

/-! ## Extension -/

/-- Every slot that the first assignment fills is filled alike by the second. -/
structure Within (a b : Assignment) : Prop where
  node : ∀ slot id, a.node? slot = some id → b.node? slot = some id
  rel : ∀ position id, a.rel? position = some id → b.rel? position = some id

theorem Within.refl (a : Assignment) : a.Within a := ⟨fun _ _ => id, fun _ _ => id⟩

theorem Within.trans (first : a.Within b) (second : b.Within c) : a.Within c where
  node slot id filled := second.node slot id (first.node slot id filled)
  rel position id filled := second.rel position id (first.rel position id filled)

theorem vacant_within (p : Pattern) (a : Assignment) : (vacant p).Within a where
  node slot id filled := by
    have bound := ((vacant_filledAt p).node_iff slot).1 (by rw [filled]; rfl)
    cases bound
  rel position id filled := by
    have placed := ((vacant_filledAt p).rel_iff position).1 (by rw [filled]; rfl)
    cases placed

/-- Two assignments that fill the same slots and lie within a third are equal. -/
theorem FilledAt.eq_of_within {p : Pattern} {s : Progress} (filled : a.FilledAt p s)
    (filled' : b.FilledAt p s) (left : a.Within c) (right : b.Within c) : a = b := by
  refine ext_slots (filled.nodesLength.trans filled'.nodesLength.symm)
    (filled.relsLength.trans filled'.relsLength.symm) (fun slot => ?_) fun position => ?_
  · by_cases bound : slot ∈ s.bound
    · obtain ⟨id, has⟩ := filled.boundNode bound
      obtain ⟨id', has'⟩ := filled'.boundNode bound
      have same := (left.node slot id has).symm.trans (right.node slot id' has')
      rw [has, has', Option.some.inj same]
    · rw [filled.vacantNode bound, filled'.vacantNode bound]
  · by_cases placed : position ∈ s.placed
    · obtain ⟨id, has⟩ := filled.placedRel placed
      obtain ⟨id', has'⟩ := filled'.placedRel placed
      have same := (left.rel position id has).symm.trans (right.rel position id' has')
      rw [has, has', Option.some.inj same]
    · rw [filled.vacantRel placed, filled'.vacantRel placed]

/-! ## Soundness -/

/-- What is filled in fits the graph and the pattern. -/
structure Sound (g : Graph) (p : Pattern) (a : Assignment) : Prop where
  node : ∀ slot id, a.node? slot = some id → g.fits p slot id = true
  rel : ∀ position id, a.rel? position = some id → ∃ slot rel, p.rels[position]? = some slot ∧
    g.relationship? id = some rel ∧ slot.accepts rel = true ∧
      a.node? slot.source = some rel.source ∧ a.node? slot.target = some rel.target
  distinct : ∀ i j id, a.rel? i = some id → a.rel? j = some id → i = j

theorem vacant_sound (g : Graph) (p : Pattern) : (vacant p).Sound g p := by
  have noNode : ∀ slot, (vacant p).node? slot = none := fun slot =>
    (vacant_filledAt p).vacantNode (s := .start) List.not_mem_nil
  have noRel : ∀ position, (vacant p).rel? position = none := fun position =>
    (vacant_filledAt p).vacantRel (s := .start) List.not_mem_nil
  refine ⟨fun slot id has => ?_, fun position id has => ?_, fun i j id has => ?_⟩
  · rw [noNode] at has
    cases has
  · rw [noRel] at has
    cases has
  · rw [noRel] at has
    cases has

end Assignment

end PropertyGraph
