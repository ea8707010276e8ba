import PropertyGraph.Proofs.Graph.Edges
import PropertyGraph.Proofs.Match.Seating
import Mathlib.Data.List.Nodup

/-!
# What a step leads to

A step of a plan chooses a node for a vacant node slot or a relationship for a
vacant relationship slot, and every choice leads to one larger assignment or to
none. From a sound assignment a step leads to sound ones, each once. If the
assignment lies within a match that respects what the row fixes, the step leads
to one that lies within that match too.
-/

namespace PropertyGraph

namespace Assignment

/-- Every slot is filled. -/
structure Full (p : Pattern) (m : Assignment) : Prop where
  nodesLength : m.nodes.length = p.nodes.length
  relsLength : m.rels.length = p.rels.length
  node : ∀ slot < p.nodes.length, ∃ id, m.node? slot = some id
  rel : ∀ position < p.rels.length, ∃ id, m.rel? position = some id

/-- The assignment has in its slot what the step fixes. -/
def Respects (m : Assignment) : MatchStep → Prop
  | .boundNode slot node => m.node? slot = some node
  | .boundRel position id => m.rel? position = some id
  | _ => True

theorem Respects.within {a b : Assignment} {step : MatchStep} (respects : a.Respects step)
    (within : a.Within b) : b.Respects step := by
  cases step with
  | boundNode slot node => exact within.node slot node respects
  | boundRel position id => exact within.rel position id respects
  | seed _ _ _ => trivial
  | expand _ _ _ => trivial
  | check _ => trivial

/-- The assignment is sound and agrees with the account of the plan. -/
structure Consistent (g : Graph) (p : Pattern) (s : Progress) (a : Assignment) : Prop where
  filled : a.FilledAt p s
  sound : a.Sound g p

theorem vacant_consistent (g : Graph) (p : Pattern) : (vacant p).Consistent g p .start :=
  ⟨vacant_filledAt p, vacant_sound g p⟩

end Assignment

namespace Graph

variable {g : Graph} {p : Pattern} {a b m : Assignment} {s : Progress} {step : MatchStep}

/-! ## The choices of a step -/

/-- The assignment with a node in a slot, if it fits. -/
def enter? (g : Graph) (p : Pattern) (a : Assignment) (slot : Nat) (node : NodeId) :
    Option Assignment :=
  if g.fits p slot node then some (a.setNode slot (some node)) else none

/-- The relationships to follow from the node in the slot `origin`. -/
def reached (g : Graph) (p : Pattern) (a : Assignment) (position origin : Nat) : List RelId :=
  match p.rels[position]?, a.node? origin with
  | some slot, some node => g.followed slot origin node
  | _, _ => []

/-- The relationships between the nodes in the slots of both ends. -/
def joining (g : Graph) (p : Pattern) (a : Assignment) (position : Nat) : List RelId :=
  match p.rels[position]? with
  | some slot => match a.node? slot.source, a.node? slot.target with
    | some source, some target => g.edgesBetween source target (some slot.type)
    | _, _ => []
  | none => []

/-- The assignments that a step leads to. -/
def outcomes (g : Graph) (p : Pattern) (a : Assignment) : MatchStep → List Assignment
  | .boundNode slot node => [node].filterMap (g.enter? p a slot)
  | .boundRel position id => [id].filterMap (g.place? p a position)
  | .seed slot _ candidates => candidates.filterMap (g.enter? p a slot)
  | .expand position origin _ =>
    (g.reached p a position origin).filterMap (g.place? p a position)
  | .check position => (g.joining p a position).filterMap (g.place? p a position)

/-- When a step may be taken: its slot is vacant, the slots it starts from are
filled, and a scan has found every node that fits. -/
inductive Ready (g : Graph) (p : Pattern) (s : Progress) : MatchStep → Prop
  | boundNode {slot : Nat} (node : NodeId) : slot ∉ s.bound → Ready g p s (.boundNode slot node)
  | boundRel {position : Nat} {slot : RelSlot} (id : RelId) :
    p.rels[position]? = some slot → position ∉ s.placed → Ready g p s (.boundRel position id)
  | seed {slot : Nat} {scan : ScanPlan} {candidates : List NodeId} :
    slot < p.nodes.length → slot ∉ s.bound → candidates.Nodup →
    (∀ id, g.fits p slot id = true → id ∈ candidates) →
    Ready g p s (.seed slot scan candidates)
  | expand {position origin goal : Nat} {slot : RelSlot} :
    p.rels[position]? = some slot → position ∉ s.placed → origin ∈ s.bound →
    (origin = slot.source ∧ goal = slot.target ∨ origin = slot.target ∧ goal = slot.source) →
    Ready g p s (.expand position origin goal)
  | check {position : Nat} {slot : RelSlot} :
    p.rels[position]? = some slot → position ∉ s.placed → slot.source ∈ s.bound →
    slot.target ∈ s.bound → Ready g p s (.check position)

/-! ## One choice -/

theorem enter?_eq_some_iff {slot : Nat} {node : NodeId} :
    g.enter? p a slot node = some b ↔
      g.fits p slot node = true ∧ a.setNode slot (some node) = b := by
  rw [enter?, Option.ite_none_right_eq_some, Option.some.injEq]

theorem seats_of_enter? (filled : a.FilledAt p s) {slot : Nat} (unbound : slot ∉ s.bound)
    {node : NodeId} (entered : g.enter? p a slot node = some b) : g.Seats p a b slot node := by
  obtain ⟨fits, rfl⟩ := enter?_eq_some_iff.1 entered
  exact .of_vacant filled.nodesLength fits (filled.vacantNode unbound)

/-- A node that enters a vacant slot keeps the assignment sound and in agreement with the
account. -/
theorem consistent_of_enter? (consistent : a.Consistent g p s) {slot : Nat}
    (unbound : slot ∉ s.bound) {node : NodeId} (entered : g.enter? p a slot node = some b) :
    b.Consistent g p { s with bound := slot :: s.bound } := by
  have seats := seats_of_enter? consistent.filled unbound entered
  have rels : b.rel? = a.rel? := by
    funext position
    rw [Assignment.rel?, Assignment.rel?, seats.rels]
  refine ⟨⟨seats.nodesLength.trans consistent.filled.nodesLength,
    seats.rels ▸ consistent.filled.relsLength, fun q => ?_, fun position => ?_⟩,
    ⟨seats.fits_each consistent.sound.node, fun position id has => ?_, fun i j id left right => ?_⟩⟩
  · rw [seats.isSome_iff, consistent.filled.node_iff, List.mem_cons]
  · rw [rels]
    exact consistent.filled.rel_iff position
  · rw [rels] at has
    obtain ⟨slot, rel, found, live, accepted, source, target⟩ :=
      consistent.sound.rel position id has
    exact ⟨slot, rel, found, live, accepted, seats.within.node _ _ source,
      seats.within.node _ _ target⟩
  · rw [rels] at left right
    exact consistent.sound.distinct i j id left right

theorem consistent_of_place? (consistent : a.Consistent g p s) {position : Nat}
    (waiting : position ∉ s.placed) {slot : RelSlot} (found : p.rels[position]? = some slot)
    {id : RelId} (placed : g.place? p a position id = some b) {bound : List Nat}
    (more : ∀ q, q ∈ bound ↔ q = slot.target ∨ q = slot.source ∨ q ∈ s.bound) :
    b.Consistent g p ⟨bound, position :: s.placed⟩ ∧ a.Within b ∧
      b.rel? position = some id := by
  have filled := consistent.filled
  have vacant := filled.vacantRel waiting
  obtain ⟨slot', rel, half, ends, places⟩ :=
    places_of_place? filled.nodesLength consistent.sound placed
  cases found.symm.trans places.found
  refine ⟨⟨⟨places.nodesLength.trans filled.nodesLength, places.relsLength.trans filled.relsLength,
    fun q => ?_, fun q => ?_⟩, places.sound filled.relsLength vacant consistent.sound⟩,
    places.within filled.relsLength vacant, ?_⟩
  · rw [places.isSome_iff, filled.node_iff, more q]
  · rw [places.rel? filled.relsLength, List.mem_cons, ← filled.rel_iff]
    split <;> simp [*]
  · rw [places.rel? filled.relsLength, if_pos rfl]

/-! ## Soundness of a step -/

/-- Following a relationship from one end that is filled fills the ends. -/
theorem mem_goal_cons_iff {slot : RelSlot} {origin goal : Nat} (bound : origin ∈ s.bound)
    (ends : origin = slot.source ∧ goal = slot.target ∨
      origin = slot.target ∧ goal = slot.source) (q : Nat) :
    q ∈ goal :: s.bound ↔ q = slot.target ∨ q = slot.source ∨ q ∈ s.bound := by
  rw [List.mem_cons]
  rcases ends with ⟨rfl, rfl⟩ | ⟨rfl, rfl⟩
  · refine or_congr_right ⟨.inr, ?_⟩
    intro either
    rcases either with rfl | mem
    · exact bound
    · exact mem
  · refine ⟨.inr, ?_⟩
    intro either
    rcases either with rfl | other
    · exact .inr bound
    · exact other

/-- Where both ends are filled already, no more are. -/
theorem mem_bound_iff {slot : RelSlot} (source : slot.source ∈ s.bound)
    (target : slot.target ∈ s.bound) (q : Nat) :
    q ∈ s.bound ↔ q = slot.target ∨ q = slot.source ∨ q ∈ s.bound := by
  refine ⟨fun mem => .inr (.inr mem), ?_⟩
  intro either
  rcases either with rfl | rfl | mem
  · exact target
  · exact source
  · exact mem

/-- A step leads to larger sound assignments that respect it. -/
theorem Ready.outcome (ready : g.Ready p s step) (consistent : a.Consistent g p s)
    (mem : b ∈ g.outcomes p a step) :
    b.Consistent g p (s.after p step) ∧ a.Within b ∧ b.Respects step := by
  cases ready with
  | boundNode node unbound =>
    obtain ⟨_, here, entered⟩ := List.mem_filterMap.1 mem
    cases List.mem_singleton.1 here
    have seats := seats_of_enter? consistent.filled unbound entered
    exact ⟨consistent_of_enter? consistent unbound entered, seats.within, seats.seated⟩
  | @boundRel position slot id found waiting =>
    obtain ⟨_, here, placed⟩ := List.mem_filterMap.1 mem
    cases List.mem_singleton.1 here
    rw [Progress.after, found]
    refine consistent_of_place? consistent waiting found placed fun q => ?_
    rw [List.mem_cons, List.mem_cons, or_left_comm]
  | seed inside unbound nodup complete =>
    obtain ⟨node, _, entered⟩ := List.mem_filterMap.1 mem
    have seats := seats_of_enter? consistent.filled unbound entered
    exact ⟨consistent_of_enter? consistent unbound entered, seats.within, trivial⟩
  | @expand position origin goal slot found waiting bound ends =>
    obtain ⟨id, _, placed⟩ := List.mem_filterMap.1 mem
    obtain ⟨kept, within, _⟩ := consistent_of_place? consistent waiting found placed
      (mem_goal_cons_iff bound ends)
    exact ⟨kept, within, trivial⟩
  | @check position slot found waiting source target =>
    obtain ⟨id, _, placed⟩ := List.mem_filterMap.1 mem
    obtain ⟨kept, within, _⟩ := consistent_of_place? consistent waiting found placed
      (mem_bound_iff source target)
    exact ⟨kept, within, trivial⟩

/-! ## Completeness of a step -/

theorem exists_enter? (within : a.Within m) (sound : m.Sound g p) (filled : a.FilledAt p s)
    {slot : Nat} (unbound : slot ∉ s.bound) {node : NodeId} (has : m.node? slot = some node) :
    ∃ b, g.enter? p a slot node = some b ∧ b.Within m := by
  have entered : g.enter? p a slot node = some (a.setNode slot (some node)) :=
    if_pos (sound.node slot node has)
  exact ⟨_, entered, (seats_of_enter? filled unbound entered).within_of within has⟩

theorem exists_place?_within (within : a.Within m) (sound : m.Sound g p)
    (consistent : a.Consistent g p s) {position : Nat} (waiting : position ∉ s.placed) {id : RelId}
    (has : m.rel? position = some id) :
    ∃ b, g.place? p a position id = some b ∧ b.Within m := by
  have filled := consistent.filled
  obtain ⟨b, placed⟩ := exists_place? within sound (filled.vacantRel waiting) filled.nodesLength
    consistent.sound has
  obtain ⟨_, _, _, _, places⟩ := places_of_place? filled.nodesLength consistent.sound placed
  exact ⟨b, placed, places.within_of filled.relsLength within sound has⟩

/-- A relationship of a match is among those to follow from either of its ends. -/
theorem mem_reached (linked : g.Linked) (within : a.Within m) (sound : m.Sound g p)
    {position origin : Nat} {slot : RelSlot} (found : p.rels[position]? = some slot)
    (atEnd : origin = slot.source ∨ origin = slot.target) (bound : ∃ id, a.node? origin = some id)
    {id : RelId} (has : m.rel? position = some id) : id ∈ g.reached p a position origin := by
  obtain ⟨slot', rel, found', live, accepted, source, target⟩ := sound.rel position id has
  cases found.symm.trans found'
  obtain ⟨node, before⟩ := bound
  have type : rel.type = slot.type := eq_of_beq (Bool.and_eq_true_iff.1 accepted).1
  have seated := within.node origin node before
  rw [reached, found, before]
  dsimp only
  rw [followed]
  split
  · rename_i atSource
    rw [atSource, source] at seated
    exact linked.mem_edgesFrom_iff.2 ⟨rel, live, Option.some.inj seated, type⟩
  · rename_i notSource
    rw [atEnd.resolve_left notSource, target] at seated
    exact linked.mem_edgesTo_iff.2 ⟨rel, live, Option.some.inj seated, type⟩

/-- A relationship of a match is among those between its ends. -/
theorem mem_joining (linked : g.Linked) (within : a.Within m) (sound : m.Sound g p)
    {position : Nat} {slot : RelSlot} (found : p.rels[position]? = some slot)
    (sourceBound : ∃ id, a.node? slot.source = some id)
    (targetBound : ∃ id, a.node? slot.target = some id) {id : RelId}
    (has : m.rel? position = some id) : id ∈ g.joining p a position := by
  obtain ⟨slot', rel, found', live, accepted, source, target⟩ := sound.rel position id has
  cases found.symm.trans found'
  obtain ⟨from_, left⟩ := sourceBound
  obtain ⟨to_, right⟩ := targetBound
  have type : rel.type = slot.type := eq_of_beq (Bool.and_eq_true_iff.1 accepted).1
  have sameSource := source.symm.trans (within.node _ _ left)
  have sameTarget := target.symm.trans (within.node _ _ right)
  rw [joining, found]
  dsimp only
  rw [left, right]
  exact linked.mem_edgesBetween_iff.2
    ⟨rel, live, Option.some.inj sameSource, Option.some.inj sameTarget, type⟩

/-- Whatever match the assignment lies within, a step stays within it. -/
theorem Ready.exists_outcome (ready : g.Ready p s step) (linked : g.Linked)
    (consistent : a.Consistent g p s) (full : m.Full p) (sound : m.Sound g p)
    (within : a.Within m) (respects : m.Respects step) : ∃ b ∈ g.outcomes p a step, b.Within m := by
  have filled := consistent.filled
  have inside : ∀ {position slot}, p.rels[position]? = some slot → position < p.rels.length :=
    fun found => (List.getElem?_eq_some_iff.1 found).1
  cases ready with
  | boundNode node unbound =>
    obtain ⟨b, entered, within'⟩ := exists_enter? within sound filled unbound respects
    exact ⟨b, List.mem_filterMap.2 ⟨node, List.mem_singleton_self _, entered⟩, within'⟩
  | boundRel id found waiting =>
    obtain ⟨b, placed, within'⟩ := exists_place?_within within sound consistent waiting respects
    exact ⟨b, List.mem_filterMap.2 ⟨id, List.mem_singleton_self _, placed⟩, within'⟩
  | @seed slot _ _ inside unbound nodup complete =>
    obtain ⟨id, has⟩ := full.node slot inside
    obtain ⟨b, entered, within'⟩ := exists_enter? within sound filled unbound has
    exact ⟨b, List.mem_filterMap.2 ⟨id, complete id (sound.node slot id has), entered⟩, within'⟩
  | @expand position _ _ _ found waiting bound ends =>
    obtain ⟨id, has⟩ := full.rel position (inside found)
    obtain ⟨b, placed, within'⟩ := exists_place?_within within sound consistent waiting has
    have mem := mem_reached linked within sound found (ends.imp And.left And.left)
      (filled.boundNode bound) has
    exact ⟨b, List.mem_filterMap.2 ⟨id, mem, placed⟩, within'⟩
  | @check position _ found waiting source target =>
    obtain ⟨id, has⟩ := full.rel position (inside found)
    obtain ⟨b, placed, within'⟩ := exists_place?_within within sound consistent waiting has
    have mem := mem_joining linked within sound found (filled.boundNode source)
      (filled.boundNode target) has
    exact ⟨b, List.mem_filterMap.2 ⟨id, mem, placed⟩, within'⟩

/-! ## No outcome twice -/

theorem reached_nodup (g : Graph) (p : Pattern) (a : Assignment) (position origin : Nat) :
    (g.reached p a position origin).Nodup := by
  unfold reached
  split
  · rw [followed]
    split
    · exact edgesFrom_nodup _ _ _
    · exact edgesTo_nodup _ _ _
  · exact .nil

theorem joining_nodup (g : Graph) (p : Pattern) (a : Assignment) (position : Nat) :
    (g.joining p a position).Nodup := by
  unfold joining
  split
  · split
    · exact edgesBetween_nodup _ _ _ _
    · exact .nil
  · exact .nil

theorem enter?_nodup (filled : a.FilledAt p s) {slot : Nat} (unbound : slot ∉ s.bound)
    {ids : List NodeId} (nodup : ids.Nodup) : (ids.filterMap (g.enter? p a slot)).Nodup := by
  refine nodup.filterMap fun node node' b entered entered' => ?_
  have left := (seats_of_enter? filled unbound entered).seated
  have right := (seats_of_enter? filled unbound entered').seated
  exact Option.some.inj (left.symm.trans right)

theorem place?_nodup (consistent : a.Consistent g p s) {position : Nat} {ids : List RelId}
    (nodup : ids.Nodup) : (ids.filterMap (g.place? p a position)).Nodup := by
  have filled := consistent.filled
  refine nodup.filterMap fun id id' b placed placed' => ?_
  obtain ⟨_, _, _, _, left⟩ := places_of_place? filled.nodesLength consistent.sound placed
  obtain ⟨_, _, _, _, right⟩ := places_of_place? filled.nodesLength consistent.sound placed'
  have same := (left.rel? filled.relsLength position).symm.trans
    (right.rel? filled.relsLength position)
  rw [if_pos rfl, if_pos rfl] at same
  exact Option.some.inj same

theorem Ready.outcomes_nodup (ready : g.Ready p s step) (consistent : a.Consistent g p s) :
    (g.outcomes p a step).Nodup := by
  cases ready with
  | boundNode node unbound =>
    exact enter?_nodup consistent.filled unbound (List.nodup_singleton node)
  | boundRel id _ _ => exact place?_nodup consistent (List.nodup_singleton id)
  | seed _ unbound nodup _ => exact enter?_nodup consistent.filled unbound nodup
  | expand _ _ _ _ => exact place?_nodup consistent (reached_nodup _ _ _ _ _)
  | check _ _ _ _ => exact place?_nodup consistent (joining_nodup _ _ _ _)

end Graph

end PropertyGraph
