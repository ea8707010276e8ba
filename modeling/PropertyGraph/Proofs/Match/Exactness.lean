import PropertyGraph.Proofs.Match.Enumeration
import PropertyGraph.Proofs.Match.Planning
import Mathlib.Data.Set.List

/-!
# What matching finds

A match gives every node slot a live node that it accepts and every relationship
slot a live relationship that it accepts between the nodes in the slots of its
ends, no relationship twice and what the row fixes in its place. Matching fails
exactly over a row that fixes a slot to something that cannot be in it, and
otherwise it answers one row for each match.
-/

namespace PropertyGraph

/-- One entity for each slot of a pattern, by position. -/
structure Match where
  nodes : List NodeId
  rels : List RelId
  deriving DecidableEq

namespace Match

/-- The match as an assignment with no slot vacant. -/
def assignment (m : Match) : Assignment := ⟨m.nodes.map some, m.rels.map some⟩

/-- What makes entities a match of a pattern from a row. -/
structure Holds (g : Graph) (p : Pattern) (row : BindingRow) (m : Match) : Prop where
  nodesLength : m.nodes.length = p.nodes.length
  relsLength : m.rels.length = p.rels.length
  node : ∀ (position : Nat) (slot : NodeSlot) (id : NodeId), p.nodes[position]? = some slot →
    m.nodes[position]? = some id →
    (∃ node, g.node? id = some node ∧ slot.accepts node = true) ∧
      ∀ entity, slot.bound? row = some entity → entity = .node id
  rel : ∀ (position : Nat) (slot : RelSlot) (id : RelId), p.rels[position]? = some slot →
    m.rels[position]? = some id →
    (∃ rel, g.relationship? id = some rel ∧ slot.accepts rel = true ∧
      m.nodes[slot.source]? = some rel.source ∧ m.nodes[slot.target]? = some rel.target) ∧
      ∀ entity, slot.bound? row = some entity → entity = .relationship id
  distinct : m.rels.Nodup

end Match

namespace Graph

variable {g : Graph} {p : Pattern} {row : BindingRow}

/-- A slot that the row fixes to something that cannot be in it. -/
inductive Misbound (g : Graph) (p : Pattern) (row : BindingRow) : Prop
  | nodeToRelationship {slot : NodeSlot} {id : RelId} : slot ∈ p.nodes →
    slot.bound? row = some (.relationship id) → Misbound g p row
  | deadNode {slot : NodeSlot} {id : NodeId} : slot ∈ p.nodes →
    slot.bound? row = some (.node id) → g.hasNode id = false → Misbound g p row
  | relationshipToNode {slot : RelSlot} {id : NodeId} : slot ∈ p.rels →
    slot.bound? row = some (.node id) → Misbound g p row
  | deadRelationship {slot : RelSlot} {id : RelId} : slot ∈ p.rels →
    slot.bound? row = some (.relationship id) → g.hasRelationship id = false → Misbound g p row

/-- What the row fixes can be used unless some slot is fixed to what cannot be in it. -/
theorem usable_iff : g.Usable p row ↔ ¬g.Misbound p row := by
  constructor
  · intro usable misbound
    rcases misbound with ⟨mem, bound⟩ | ⟨mem, bound, dead⟩ | ⟨mem, bound⟩ | ⟨mem, bound, dead⟩
    · obtain ⟨_, same, _⟩ := usable.nodes _ mem _ bound
      cases same
    · obtain ⟨_, same, live⟩ := usable.nodes _ mem _ bound
      cases same
      rw [dead] at live
      cases live
    · obtain ⟨_, same, _⟩ := usable.rels _ mem _ bound
      cases same
    · obtain ⟨_, same, live⟩ := usable.rels _ mem _ bound
      cases same
      rw [dead] at live
      cases live
  · intro clean
    refine ⟨fun slot mem entity bound => ?_, fun slot mem entity bound => ?_⟩
    · cases entity with
      | relationship id => exact (clean (.nodeToRelationship mem bound)).elim
      | node id =>
        cases live : g.hasNode id with
        | false => exact (clean (.deadNode mem bound live)).elim
        | true => exact ⟨id, rfl, live⟩
    · cases entity with
      | node id => exact (clean (.relationshipToNode mem bound)).elim
      | relationship id =>
        cases live : g.hasRelationship id with
        | false => exact (clean (.deadRelationship mem bound live)).elim
        | true => exact ⟨id, rfl, live⟩

/-! ## Full assignments as matches -/

theorem node?_assignment {m : Match} {position : Nat} :
    m.assignment.node? position = m.nodes[position]? := by
  rw [Assignment.node?, Match.assignment, List.getElem?_map]
  cases m.nodes[position]? <;> rfl

theorem rel?_assignment {m : Match} {position : Nat} :
    m.assignment.rel? position = m.rels[position]? := by
  rw [Assignment.rel?, Match.assignment, List.getElem?_map]
  cases m.rels[position]? <;> rfl

theorem exists_map_eq {α β : Type} {f : α → β} {ys : List β} (each : ∀ y ∈ ys, ∃ x, f x = y) :
    ∃ xs : List α, xs.map f = ys :=
  (Set.ext_iff.1 (Set.range_list_map f) ys).2 each

theorem exists_assignment {a : Assignment} (full : a.Full p) : ∃ m : Match, m.assignment = a := by
  have filled : ∀ {α : Type} {xs : List (Option α)},
      (∀ i < xs.length, ∃ x, (xs[i]?).join = some x) → ∃ ys : List α, ys.map some = xs := by
    intro α xs each
    refine exists_map_eq fun slot mem => ?_
    obtain ⟨i, inside, rfl⟩ := List.getElem_of_mem mem
    obtain ⟨x, has⟩ := each i inside
    rw [List.getElem?_eq_getElem inside] at has
    exact ⟨x, has.symm⟩
  obtain ⟨nodes, sameNodes⟩ := filled fun i inside => full.node i (full.nodesLength ▸ inside)
  obtain ⟨rels, sameRels⟩ := filled fun i inside => full.rel i (full.relsLength ▸ inside)
  exact ⟨⟨nodes, rels⟩, by rw [Match.assignment, sameNodes, sameRels]⟩

theorem assignment_injective : Function.Injective Match.assignment := by
  intro m m' same
  rcases m with ⟨nodes, rels⟩
  rcases m' with ⟨nodes', rels'⟩
  have alike : ∀ {α : Type} {xs ys : List α}, xs.map some = ys.map some → xs = ys :=
    fun same => List.map_injective_iff.2 (Option.some_injective _) same
  cases alike (congrArg Assignment.nodes same)
  cases alike (congrArg Assignment.rels same)
  rfl

theorem full_of_holds {m : Match} (holds : m.Holds g p row) : m.assignment.Full p where
  nodesLength := (List.length_map _).trans holds.nodesLength
  relsLength := (List.length_map _).trans holds.relsLength
  node slot inside := by
    rw [node?_assignment]
    exact ⟨_, List.getElem?_eq_getElem (holds.nodesLength ▸ inside)⟩
  rel position inside := by
    rw [rel?_assignment]
    exact ⟨_, List.getElem?_eq_getElem (holds.relsLength ▸ inside)⟩

theorem sound_of_holds {m : Match} (holds : m.Holds g p row) : m.assignment.Sound g p where
  node slot id has := by
    rw [node?_assignment] at has
    have inside := holds.nodesLength ▸ (List.getElem?_eq_some_iff.1 has).1
    have found := List.getElem?_eq_getElem inside
    obtain ⟨⟨node, live, accepted⟩, _⟩ := holds.node slot _ id found has
    exact fits_iff.2 ⟨_, node, found, live, accepted⟩
  rel position id has := by
    rw [rel?_assignment] at has
    have inside := holds.relsLength ▸ (List.getElem?_eq_some_iff.1 has).1
    have found := List.getElem?_eq_getElem inside
    obtain ⟨⟨rel, live, accepted, source, target⟩, _⟩ := holds.rel position _ id found has
    exact ⟨_, rel, found, live, accepted, node?_assignment.trans source,
      node?_assignment.trans target⟩
  distinct i j id left right := by
    rw [rel?_assignment] at left right
    exact (List.getElem?_inj (List.getElem?_eq_some_iff.1 left).1 holds.distinct).1
      (left.trans right.symm)

theorem respects_of_holds {m : Match} (holds : m.Holds g p row) :
    RespectsRow p row m.assignment where
  node position slot id found bound := by
    have inside := holds.nodesLength.symm ▸ (List.getElem?_eq_some_iff.1 found).1
    have has := List.getElem?_eq_getElem inside
    cases (holds.node position slot _ found has).2 _ bound
    exact node?_assignment.trans has
  rel position slot id found bound := by
    have inside := holds.relsLength.symm ▸ (List.getElem?_eq_some_iff.1 found).1
    have has := List.getElem?_eq_getElem inside
    cases (holds.rel position slot _ found has).2 _ bound
    exact rel?_assignment.trans has

/-- A full and sound assignment that respects the row is a match. -/
theorem holds_of_sound {m : Match} (usable : g.Usable p row) (full : m.assignment.Full p)
    (sound : m.assignment.Sound g p) (respects : RespectsRow p row m.assignment) :
    m.Holds g p row where
  nodesLength := (List.length_map _).symm.trans full.nodesLength
  relsLength := (List.length_map _).symm.trans full.relsLength
  node position slot id found has := by
    constructor
    · obtain ⟨slot', node, found', live, accepted⟩ :=
        fits_iff.1 (sound.node position id (node?_assignment.trans has))
      cases found.symm.trans found'
      exact ⟨node, live, accepted⟩
    · intro entity bound
      obtain ⟨id', rfl, _⟩ := usable.nodes slot (List.mem_of_getElem? found) entity bound
      have fixed := node?_assignment.symm.trans (respects.node position slot id' found bound)
      rw [Option.some.inj (has.symm.trans fixed)]
  rel position slot id found has := by
    constructor
    · obtain ⟨slot', rel, found', live, accepted, source, target⟩ :=
        sound.rel position id (rel?_assignment.trans has)
      cases found.symm.trans found'
      exact ⟨rel, live, accepted, node?_assignment.symm.trans source,
        node?_assignment.symm.trans target⟩
    · intro entity bound
      obtain ⟨id', rfl, _⟩ := usable.rels slot (List.mem_of_getElem? found) entity bound
      have fixed := rel?_assignment.symm.trans (respects.rel position slot id' found bound)
      rw [Option.some.inj (has.symm.trans fixed)]
  distinct := by
    refine List.nodup_iff_getElem?_ne_getElem?.2 fun i j below inside same => ?_
    have left := List.getElem?_eq_getElem (Nat.lt_trans below inside)
    have right := same.symm.trans left
    exact Nat.ne_of_lt below (sound.distinct i j _ (rel?_assignment.trans left)
      (rel?_assignment.trans right))

/-- A match is a full and sound assignment that respects the row. -/
theorem holds_iff {m : Match} (usable : g.Usable p row) :
    m.Holds g p row ↔ m.assignment.Full p ∧ m.assignment.Sound g p ∧
      RespectsRow p row m.assignment := by
  constructor
  · intro holds
    exact ⟨full_of_holds holds, sound_of_holds holds, respects_of_holds holds⟩
  · intro reached
    rcases reached with ⟨full, sound, respects⟩
    exact holds_of_sound usable full sound respects

/-! ## Matches in growing graphs -/

/-- The entities of the first graph are in the second one as they were. -/
structure Grows (g g' : Graph) : Prop where
  nodes : ∀ id node, g.node? id = some node → g'.node? id = some node
  rels : ∀ id rel, g.relationship? id = some rel → g'.relationship? id = some rel

variable {g' g'' : Graph} {m : Match}

theorem Grows.refl (g : Graph) : g.Grows g := ⟨fun _ _ => id, fun _ _ => id⟩

theorem Grows.trans (first : g.Grows g') (second : g'.Grows g'') : g.Grows g'' where
  nodes id node found := second.nodes id node (first.nodes id node found)
  rels id rel found := second.rels id rel (first.rels id rel found)

/-- A match stays a match when the graph grows. -/
theorem Grows.holds (grows : g.Grows g') (holds : m.Holds g p row) : m.Holds g' p row where
  nodesLength := holds.nodesLength
  relsLength := holds.relsLength
  node position slot id found has := by
    obtain ⟨⟨node, stored, accepted⟩, bound⟩ := holds.node position slot id found has
    exact ⟨⟨node, grows.nodes id node stored, accepted⟩, bound⟩
  rel position slot id found has := by
    obtain ⟨⟨rel, stored, fits⟩, bound⟩ := holds.rel position slot id found has
    exact ⟨⟨rel, grows.rels id rel stored, fits⟩, bound⟩
  distinct := holds.distinct

/-- A row from which there is a match fixes no slot to what cannot be in it. -/
theorem usable_of_holds (holds : m.Holds g p row) : g.Usable p row where
  nodes slot mem entity bound := by
    obtain ⟨position, inside, rfl⟩ := List.getElem_of_mem mem
    have inside' : position < m.nodes.length := holds.nodesLength ▸ inside
    obtain ⟨⟨node, stored, _⟩, fixed⟩ := holds.node position _ _
      (List.getElem?_eq_getElem inside) (List.getElem?_eq_getElem inside')
    exact ⟨_, fixed entity bound, hasNode_iff.2 ⟨node, stored⟩⟩
  rels slot mem entity bound := by
    obtain ⟨position, inside, rfl⟩ := List.getElem_of_mem mem
    have inside' : position < m.rels.length := holds.relsLength ▸ inside
    obtain ⟨⟨rel, stored, _⟩, fixed⟩ := holds.rel position _ _
      (List.getElem?_eq_getElem inside) (List.getElem?_eq_getElem inside')
    exact ⟨_, fixed entity bound, hasRelationship_iff.2 ⟨rel, stored⟩⟩

/-! ## Matching -/

/-- Without a limit the search finds all that the steps of the plan lead to. -/
theorem runMatch_none {steps : List MatchStep} (runs : g.Runs p .start steps) :
    g.runMatch p ⟨steps⟩ none = g.extensions p steps (.vacant p) := by
  rw [runMatch, runs.collects (Assignment.vacant_consistent g p) none ⟨.vacant p, #[]⟩ rfl]
  exact Search.collect_none _ _

/-- If the row fixes no slot to what cannot be in it, matching answers one row
for each match. -/
theorem Coherent.findAll_of_usable (coherent : g.Coherent) (wellFormed : p.WellFormed)
    (usable : g.Usable p row) :
    ∃ found : List Match, found.Nodup ∧ (∀ m, m ∈ found ↔ m.Holds g p row) ∧
      g.findAll p row = .ok (found.map fun m => p.bindRow row m.assignment) := by
  have runs := coherent.planMatch_runs wellFormed row
  have asked : ∀ m : Assignment, _ ↔ RespectsRow p row m :=
    fun m => coherent.respects_plan_iff wellFormed
  have answered := planMatch_eq_ok usable
  generalize fixedSteps p row ++
    g.planOn p p.slotCount ((fixedSteps p row).foldl (.after p) .start) = steps
    at runs asked answered
  have vacant := Assignment.vacant_consistent g p
  have reached : ∀ a, a ∈ g.extensions p steps (.vacant p) ↔
      a.Full p ∧ a.Sound g p ∧ RespectsRow p row a := fun a => by
    rw [runs.mem_extensions_iff coherent.linked vacant, asked]
    simp only [Assignment.vacant_within, true_and]
  obtain ⟨found, same⟩ := exists_map_eq fun a mem => exists_assignment ((reached a).1 mem).1
  have nodup := runs.extensions_nodup coherent.linked vacant
  rw [← same] at nodup
  refine ⟨found, nodup.of_map _, fun m => ?_, ?_⟩
  · rw [holds_iff usable, ← reached, ← same, List.mem_map_of_injective assignment_injective]
  · rw [findAll, answered]
    show Except.ok ((g.runMatch p ⟨steps⟩ none).map (p.bindRow row)) = _
    rw [runMatch_none runs, ← same, List.map_map]
    rfl

/-- What matching answers are the rows of all matches, each of them once. -/
theorem Coherent.of_findAll (coherent : g.Coherent) (wellFormed : p.WellFormed)
    {rows : List BindingRow} (answered : g.findAll p row = .ok rows) :
    ∃ found : List Match, found.Nodup ∧ (∀ m, m ∈ found ↔ m.Holds g p row) ∧
      rows = found.map fun m => p.bindRow row m.assignment := by
  obtain ⟨plan, planned, _⟩ := map_eq_ok_iff.1 answered
  obtain ⟨found, nodup, holds, answered'⟩ :=
    coherent.findAll_of_usable wellFormed (usable_of_planMatch planned)
  exact ⟨found, nodup, holds, Except.ok.inj (answered.symm.trans answered')⟩

/-- In a reachable graph matching a pattern of paths fails exactly if the row
fixes a slot to something of the wrong kind or not live. Otherwise it answers one
row for each match and no other. -/
theorem findAll_exact (reachable : g.Reachable) {paths : List Path}
    (compiled : Pattern.ofPaths paths = .ok p) (row : BindingRow) :
    ((∃ e, g.findAll p row = .error e) ↔ g.Misbound p row) ∧
      (¬g.Misbound p row → ∃ found : List Match, found.Nodup ∧
        (∀ m, m ∈ found ↔ m.Holds g p row) ∧
        g.findAll p row = .ok (found.map fun m => p.bindRow row m.assignment)) := by
  have wellFormed := Pattern.wellFormed_of_ofPaths compiled
  have answers : ¬g.Misbound p row → _ := fun clean =>
    reachable.coherent.findAll_of_usable wellFormed (usable_iff.2 clean)
  refine ⟨⟨?_, ?_⟩, answers⟩
  · intro fails
    rcases fails with ⟨e, failed⟩
    by_contra clean
    obtain ⟨found, _, _, answered⟩ := answers clean
    rw [failed] at answered
    cases answered
  · intro misbound
    cases answered : g.findAll p row with
    | error e => exact ⟨e, rfl⟩
    | ok rows =>
      obtain ⟨plan, planned, _⟩ := map_eq_ok_iff.1 answered
      exact (usable_iff.1 (usable_of_planMatch planned) misbound).elim

/-- On one relationship between two nodes there is one match, and it is found. -/
theorem findAll_exact_on_one_edge :
    let g := (Graph.empty .standard).afterAll [.createNode ["Person"] [], .createNode ["Dog"] [],
      .createRelationship "owns" ⟨1⟩ ⟨2⟩ []]
    let path : Path := ⟨[⟨some "p", some "Person", []⟩, ⟨some "d", none, []⟩],
      [⟨some "r", "owns", .outgoing, []⟩]⟩
    let p : Pattern := ⟨[⟨some "p", ["Person"], []⟩, ⟨some "d", [], []⟩],
      [⟨some "r", "owns", 0, 1, []⟩], [.node 0, .rel 0, .node 1]⟩
    g.Reachable ∧ Pattern.ofPaths [path] = .ok p ∧ ¬g.Misbound p .empty ∧
      g.findAll p .empty = .ok
        [⟨[("p", .node ⟨1⟩), ("r", .relationship ⟨1⟩), ("d", .node ⟨2⟩)]⟩] ∧
      ∃ found : List Match, found.Nodup ∧ (∀ m, m ∈ found ↔ m.Holds g p .empty) ∧
        g.findAll p .empty = .ok (found.map fun m => p.bindRow .empty m.assignment) := by
  intro g path p
  have reachable : g.Reachable := (Reachable.empty .standard).afterAll _
  have compiled : Pattern.ofPaths [path] = .ok p := rfl
  obtain ⟨fails_iff, answers⟩ := findAll_exact reachable compiled .empty
  have clean : ¬g.Misbound p .empty := fun misbound => by
    obtain ⟨e, failed⟩ := fails_iff.2 misbound
    cases failed
  exact ⟨reachable, compiled, clean, rfl, answers clean⟩

end Graph

end PropertyGraph
