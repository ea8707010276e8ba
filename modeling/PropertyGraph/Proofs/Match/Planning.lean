import PropertyGraph.Proofs.Graph.Scan
import PropertyGraph.Proofs.Match.Search
import PropertyGraph.Proofs.Pattern.WellFormed

/-!
# What a plan looks like

A plan is found unless the row fixes a slot to something that is not live or of
the wrong kind. It begins with what the row fixes; from there every step is
ready when it comes, a scan for a slot having found every node that fits, and
places a relationship or binds a node. So the loop that lists them ends, and the
steps run until no slot is left.
-/

namespace PropertyGraph

open Std

/-! ## What the row fixes -/

/-- The row fixes the slot to a live node, if at all. -/
def NodeSlot.Usable (g : Graph) (row : BindingRow) (slot : NodeSlot) : Prop :=
  ∀ entity, slot.bound? row = some entity → ∃ id, entity = .node id ∧ g.hasNode id = true

/-- The row fixes the slot to a live relationship, if at all. -/
def RelSlot.Usable (g : Graph) (row : BindingRow) (slot : RelSlot) : Prop :=
  ∀ entity, slot.bound? row = some entity →
    ∃ id, entity = .relationship id ∧ g.hasRelationship id = true

/-- The step for a node slot that the row fixes. -/
def fixedNode? (row : BindingRow) (n : NodeSlot × Nat) : Option MatchStep :=
  (n.1.bound? row).bind fun entity => entity.node?.map (.boundNode n.2)

/-- The step for a relationship slot that the row fixes. -/
def fixedRel? (row : BindingRow) (r : RelSlot × Nat) : Option MatchStep :=
  (r.1.bound? row).bind fun entity => entity.relationship?.map (.boundRel r.2)

namespace Graph

variable {g : Graph} {p : Pattern} {row : BindingRow} {m : Assignment} {s : Progress}
  {step : MatchStep} {steps rest : List MatchStep}

theorem boundNodes_eq_ok_iff {slots : List (NodeSlot × Nat)} :
    g.boundNodes row slots = .ok steps ↔
      (∀ n ∈ slots, n.1.Usable g row) ∧ steps = slots.filterMap (fixedNode? row) := by
  induction slots generalizing steps with
  | nil => simp [boundNodes, eq_comm]
  | cons n others ih =>
    rw [List.forall_mem_cons, List.filterMap_cons, boundNodes, NodeSlot.Usable, fixedNode?]
    cases bound : n.1.bound? row with
    | none => simp [ih]
    | some entity =>
      cases entity with
      | relationship id => simp
      | node id =>
        cases live : g.hasNode id with
        | false => simp [live]
        | true => simp [live, map_eq_ok_iff, ih, EntityRef.node?, eq_comm (a := steps)]

theorem boundRels_eq_ok_iff {slots : List (RelSlot × Nat)} :
    g.boundRels row slots = .ok steps ↔
      (∀ r ∈ slots, r.1.Usable g row) ∧ steps = slots.filterMap (fixedRel? row) := by
  induction slots generalizing steps with
  | nil => simp [boundRels, eq_comm]
  | cons r others ih =>
    rw [List.forall_mem_cons, List.filterMap_cons, boundRels, RelSlot.Usable, fixedRel?]
    cases bound : r.1.bound? row with
    | none => simp [ih]
    | some entity =>
      cases entity with
      | node id => simp
      | relationship id =>
        cases live : g.hasRelationship id with
        | false => simp [live]
        | true => simp [live, map_eq_ok_iff, ih, EntityRef.relationship?, eq_comm (a := steps)]

theorem fixedNode?_eq_some {n : NodeSlot × Nat} (fixed : fixedNode? row n = some step) :
    ∃ id, n.1.bound? row = some (.node id) ∧ step = .boundNode n.2 id := by
  obtain ⟨entity, bound, fixed⟩ := Option.bind_eq_some_iff.1 fixed
  obtain ⟨id, kind, rfl⟩ := Option.map_eq_some_iff.1 fixed
  cases entity with
  | node _ =>
    cases kind
    exact ⟨id, bound, rfl⟩
  | relationship _ => cases kind

theorem fixedRel?_eq_some {r : RelSlot × Nat} (fixed : fixedRel? row r = some step) :
    ∃ id, r.1.bound? row = some (.relationship id) ∧ step = .boundRel r.2 id := by
  obtain ⟨entity, bound, fixed⟩ := Option.bind_eq_some_iff.1 fixed
  obtain ⟨id, kind, rfl⟩ := Option.map_eq_some_iff.1 fixed
  cases entity with
  | node _ => cases kind
  | relationship _ =>
    cases kind
    exact ⟨id, bound, rfl⟩

/-- Steps that put fixed nodes into different slots are ready one after the other. -/
theorem runs_fixedNodes {slots : List (NodeSlot × Nat)}
    (apart : (slots.map Prod.snd).Nodup) (unbound : ∀ n ∈ slots, n.2 ∉ s.bound)
    (runs : ∀ s', s'.placed = s.placed →
      (slots.filterMap (fixedNode? row)).foldl (.after p) s = s' → g.Runs p s' rest) :
    g.Runs p s (slots.filterMap (fixedNode? row) ++ rest) := by
  induction slots generalizing s with
  | nil => exact runs s rfl rfl
  | cons n others ih =>
    obtain ⟨alone, apart⟩ := List.nodup_cons.1 apart
    have later : ∀ q ∈ others, q.2 ∉ s.bound := fun q mem =>
      unbound q (List.mem_cons_of_mem _ mem)
    cases fixed : fixedNode? row n with
    | none =>
      rw [List.filterMap_cons_none fixed] at runs ⊢
      exact ih apart later runs
    | some step =>
      rw [List.filterMap_cons_some fixed] at runs ⊢
      obtain ⟨id, _, rfl⟩ := fixedNode?_eq_some fixed
      refine .step (.boundNode id (unbound n List.mem_cons_self)) (ih apart (fun q mem => ?_) runs)
      rw [Progress.after, List.mem_cons, not_or]
      exact ⟨fun same => alone (List.mem_map.2 ⟨q, mem, same⟩), later q mem⟩

/-- Steps that put fixed relationships into different slots are ready one after
the other. -/
theorem runs_fixedRels {slots : List (RelSlot × Nat)} (apart : (slots.map Prod.snd).Nodup)
    (inside : ∀ r ∈ slots, p.rels[r.2]? = some r.1) (waiting : ∀ r ∈ slots, r.2 ∉ s.placed)
    (runs : g.Runs p ((slots.filterMap (fixedRel? row)).foldl (.after p) s) rest) :
    g.Runs p s (slots.filterMap (fixedRel? row) ++ rest) := by
  induction slots generalizing s with
  | nil => exact runs
  | cons r others ih =>
    obtain ⟨alone, apart⟩ := List.nodup_cons.1 apart
    have later : ∀ q ∈ others, q.2 ∉ s.placed := fun q mem =>
      waiting q (List.mem_cons_of_mem _ mem)
    have inside' : ∀ q ∈ others, p.rels[q.2]? = some q.1 := fun q mem =>
      inside q (List.mem_cons_of_mem _ mem)
    cases fixed : fixedRel? row r with
    | none =>
      rw [List.filterMap_cons_none fixed] at runs ⊢
      exact ih apart inside' later runs
    | some step =>
      rw [List.filterMap_cons_some fixed] at runs ⊢
      obtain ⟨id, _, rfl⟩ := fixedRel?_eq_some fixed
      have found := inside r List.mem_cons_self
      refine .step (.boundRel id found (waiting r List.mem_cons_self))
        (ih apart inside' (fun q mem => ?_) runs)
      rw [Progress.after, found, List.mem_cons, not_or]
      exact ⟨fun same => alone (List.mem_map.2 ⟨q, mem, same⟩), later q mem⟩

/-! ## Candidates of a scan -/

/-- A node slot accepts what its scan, on any of its labels, selects as well. -/
theorem selects_of_accepts {slot : NodeSlot} {label : Option String} {id : NodeId} {node : Node}
    (among : ∀ l, label = some l → l ∈ slot.labels) (live : g.node? id = some node)
    (accepted : slot.accepts node = true) : g.Selects label slot.predicates id := by
  obtain ⟨labels, literals⟩ := Bool.and_eq_true_iff.1 accepted
  refine ⟨node, live, fun l same => List.all_eq_true.1 labels l (among l same), ?_⟩
  rw [Node.satisfies, NodeSlot.predicates, List.all_map]
  refine List.all_eq_true.2 fun literal mem => ?_
  have satisfied := List.all_eq_true.1 literals literal mem
  show PropertyPredicate.holds _ (node.properties.get? literal.1) = true
  cases has : node.properties.get? literal.1 with
  | none =>
    rw [has] at satisfied
    cases satisfied
  | some own =>
    rw [has] at satisfied
    exact (CompareOp.holds_eq own literal.2).trans satisfied

/-- The scan for a slot finds every node that fits it. -/
theorem Coherent.mem_slotScan (coherent : g.Coherent) {position : Nat} {slot : NodeSlot}
    (found : p.nodes[position]? = some slot) {id : NodeId} (fits : g.fits p position id = true) :
    id ∈ g.runScan (g.slotScan slot) := by
  obtain ⟨slot', node, found', live, accepted⟩ := fits_iff.1 fits
  cases found.symm.trans found'
  exact coherent.mem_scan_iff.2
    (selects_of_accepts (fun l least => mem_of_leastBy? least) live accepted)

/-! ## The next step -/

/-- The relationship slots that are not placed yet. -/
theorem mem_waiting_iff {r : RelSlot × Nat} :
    r ∈ p.rels.zipIdx.filter (fun r => !s.places r.2) ↔
      p.rels[r.2]? = some r.1 ∧ r.2 ∉ s.placed := by
  rw [List.mem_filter, List.mem_zipIdx_iff_getElem?, Progress.places, Bool.not_eq_true',
    Bool.eq_false_iff, ne_eq, List.contains_iff_mem]

theorem mem_seeds {seed : Nat × ScanPlan × List NodeId} (mem : seed ∈ g.seeds p s) :
    ∃ slot, p.nodes[seed.1]? = some slot ∧ seed.1 ∉ s.bound ∧
      seed.2 = (g.slotScan slot, g.runScan (g.slotScan slot)) := by
  obtain ⟨⟨slot, position⟩, vacant, rfl⟩ := List.mem_map.1 mem
  rw [List.mem_filter, List.mem_zipIdx_iff_getElem?, Progress.binds, Bool.not_eq_true',
    Bool.eq_false_iff, ne_eq, List.contains_iff_mem] at vacant
  exact ⟨slot, vacant.1, vacant.2, rfl⟩

/-- What the planning loop takes next: a relationship slot both of whose ends are
bound, else one that leads from a bound end to one that is not, and a scan only
where no relationship slot that is left has a bound end. -/
inductive Chosen (g : Graph) (p : Pattern) (s : Progress) : MatchStep → Prop
  | check {position : Nat} {slot : RelSlot} :
    p.rels[position]? = some slot → position ∉ s.placed → slot.source ∈ s.bound →
    slot.target ∈ s.bound → Chosen g p s (.check position)
  | expand {position origin goal : Nat} {slot : RelSlot} :
    p.rels[position]? = some slot → position ∉ s.placed → origin ∈ s.bound → goal ∉ s.bound →
    (origin = slot.source ∧ goal = slot.target ∨ origin = slot.target ∧ goal = slot.source) →
    Chosen g p s (.expand position origin goal)
  | seed {position : Nat} {slot : NodeSlot} :
    p.nodes[position]? = some slot → position ∉ s.bound →
    (∀ other rel, p.rels[other]? = some rel → other ∉ s.placed →
      rel.source ∉ s.bound ∧ rel.target ∉ s.bound) →
    Chosen g p s (.seed position (g.slotScan slot) (g.runScan (g.slotScan slot)))

/-- The next step is chosen by the rules of the loop: no relationship is followed while
one closes, and no slot is scanned for while a relationship leads on. -/
theorem chosen_of_nextStep? (next : g.nextStep? p s = some step) : g.Chosen p s step := by
  have bound_iff : ∀ slot, s.binds slot = true ↔ slot ∈ s.bound := fun _ => List.contains_iff_mem
  unfold nextStep? at next
  dsimp only at next
  split at next
  · rename_i slot position check
    obtain ⟨found, waiting⟩ := mem_waiting_iff.1 (List.mem_of_find?_eq_some check)
    have ends := List.find?_some check
    obtain ⟨source, target⟩ := Bool.and_eq_true_iff.1 ends
    rw [← Option.some.inj next]
    exact .check found waiting ((bound_iff _).1 source) ((bound_iff _).1 target)
  · rename_i closing
    -- No relationship slot that is left closes, so one end of it is not bound.
    have apart : ∀ {other : Nat} {rel : RelSlot}, p.rels[other]? = some rel →
        other ∉ s.placed → rel.source ∈ s.bound → rel.target ∉ s.bound := by
      intro other rel found waiting source target
      refine List.find?_eq_none.1 closing (rel, other) (mem_waiting_iff.2 ⟨found, waiting⟩) ?_
      exact Bool.and_eq_true_iff.2 ⟨(bound_iff _).2 source, (bound_iff _).2 target⟩
    split at next
    · rename_i slot position expand
      obtain ⟨found, waiting⟩ := mem_waiting_iff.1 (List.mem_of_find?_eq_some expand)
      have ends := List.find?_some expand
      have oneEnd := Bool.or_eq_true_iff.1 ends
      split at next
      · rename_i source
        have bound := (bound_iff _).1 source
        rw [← Option.some.inj next]
        exact .expand found waiting bound (apart found waiting bound) (.inl ⟨rfl, rfl⟩)
      · rename_i source
        have bound := (bound_iff _).1 (oneEnd.resolve_left source)
        rw [← Option.some.inj next]
        exact .expand found waiting bound (fun mem => source ((bound_iff _).2 mem))
          (.inr ⟨rfl, rfl⟩)
    · rename_i leading
      obtain ⟨⟨position, scan, candidates⟩, least, rfl⟩ := Option.map_eq_some_iff.1 next
      obtain ⟨slot, found, unbound, scanned⟩ := mem_seeds (mem_of_leastBy? least)
      cases scanned
      refine .seed found unbound fun other rel found' waiting => not_or.1 fun oneEnd => ?_
      refine List.find?_eq_none.1 leading (rel, other) (mem_waiting_iff.2 ⟨found', waiting⟩) ?_
      exact Bool.or_eq_true_iff.2 (oneEnd.imp (bound_iff _).2 (bound_iff _).2)

/-- Whatever step comes next, it is ready. -/
theorem Chosen.ready (chosen : g.Chosen p s step) (coherent : g.Coherent) : g.Ready p s step := by
  cases chosen with
  | check found waiting source target => exact .check found waiting source target
  | expand found waiting bound _ ends => exact .expand found waiting bound ends
  | seed found unbound _ =>
    exact .seed (List.getElem?_eq_some_iff.1 found).1 unbound
      (coherent.runScan_nodup (planScan_spec _ _ _).2.2)
      fun id fits => coherent.mem_slotScan found fits

theorem Chosen.respects (chosen : g.Chosen p s step) (m : Assignment) : m.Respects step := by
  cases chosen <;> trivial

/-! ## Slots left -/

/-- How many of the first positions are not used. -/
def vacancies (count : Nat) (used : List Nat) : Nat :=
  ((List.range count).filter fun position => !used.contains position).length

theorem vacancies_le (count : Nat) (used : List Nat) : vacancies count used ≤ count :=
  Nat.le_trans (List.length_filter_le _ _) (Nat.le_of_eq List.length_range)

theorem filter_vacant_cons (count position : Nat) (used : List Nat) :
    ((List.range count).filter fun q => !(position :: used).contains q) =
      ((List.range count).filter fun q => !used.contains q).filter fun q => q != position := by
  rw [List.filter_filter]
  congr 1
  funext q
  rw [List.contains_cons, Bool.not_or, bne]

theorem vacancies_cons_le (count position : Nat) (used : List Nat) :
    vacancies count (position :: used) ≤ vacancies count used := by
  rw [vacancies, filter_vacant_cons]
  exact List.length_filter_le _ _

theorem vacancies_cons_lt {count position : Nat} {used : List Nat} (inside : position < count)
    (unused : position ∉ used) : vacancies count (position :: used) < vacancies count used := by
  rw [vacancies, filter_vacant_cons]
  refine List.length_filter_lt_length_iff_exists.2 ⟨position, ?_, by simp⟩
  simp [inside, unused]

/-- How many slots are not accounted for. -/
def left (p : Pattern) (s : Progress) : Nat :=
  vacancies p.nodes.length s.bound + vacancies p.rels.length s.placed

theorem Chosen.left_lt (chosen : g.Chosen p s step) :
    left p (s.after p step) < left p s := by
  have inside : ∀ {r : Nat} {slot : RelSlot}, p.rels[r]? = some slot → r < p.rels.length :=
    fun found => (List.getElem?_eq_some_iff.1 found).1
  cases chosen with
  | check found waiting _ _ =>
    exact Nat.add_lt_add_left (vacancies_cons_lt (inside found) waiting) _
  | expand found waiting _ _ _ =>
    exact Nat.add_lt_add_of_le_of_lt (vacancies_cons_le _ _ _)
      (vacancies_cons_lt (inside found) waiting)
  | seed found unbound _ =>
    exact Nat.add_lt_add_right
      (vacancies_cons_lt (List.getElem?_eq_some_iff.1 found).1 unbound) _

/-- If there is no next step, no slot is left. -/
theorem done_of_nextStep?_eq_none (wellFormed : p.WellFormed) (stuck : g.nextStep? p s = none) :
    Progress.Done p s := by
  unfold nextStep? at stuck
  dsimp only at stuck
  split at stuck
  · cases stuck
  · split at stuck
    · split at stuck <;> cases stuck
    · rename_i apart
      have seeded := eq_nil_of_leastBy? (Option.map_eq_none_iff.1 stuck)
      have bound : ∀ slot < p.nodes.length, slot ∈ s.bound := by
        intro slot inside
        by_contra unbound
        have vacant : (p.nodes[slot], slot) ∈ p.nodes.zipIdx.filter fun n => !s.binds n.2 := by
          rw [List.mem_filter, List.mem_zipIdx_iff_getElem?, Progress.binds, Bool.not_eq_true',
            Bool.eq_false_iff, ne_eq, List.contains_iff_mem]
          exact ⟨List.getElem?_eq_getElem inside, unbound⟩
        rw [seeds, List.map_eq_nil_iff] at seeded
        rw [seeded] at vacant
        cases vacant
      refine ⟨bound, fun position inside => ?_⟩
      by_contra waiting
      have mem := (mem_waiting_iff (r := (p.rels[position], position))).2
        ⟨List.getElem?_eq_getElem inside, waiting⟩
      have source := wellFormed.source _ (List.getElem_mem inside)
      refine List.find?_eq_none.1 apart _ mem (Bool.or_eq_true_iff.2 (.inl ?_))
      exact List.contains_iff_mem.2 (bound _ source)

/-! ## The whole plan -/

/-- What the planning loop lists if nothing counts its turns: it takes the next
step as long as there is one. -/
inductive Proceeds (g : Graph) (p : Pattern) : Progress → List MatchStep → Prop
  | stop {s : Progress} : g.nextStep? p s = none → Proceeds g p s []
  | step {s : Progress} {step : MatchStep} {steps : List MatchStep} :
    g.nextStep? p s = some step → Proceeds g p (s.after p step) steps →
    Proceeds g p s (step :: steps)

/-- The loop ends by itself within as many turns as there are slots left. -/
theorem planOn_proceeds {bound : Nat} (enough : left p s ≤ bound) :
    g.Proceeds p s (g.planOn p bound s) := by
  induction bound generalizing s with
  | zero =>
    refine .stop (Option.eq_none_iff_forall_ne_some.2 fun step next => ?_)
    have fewer := (chosen_of_nextStep? next).left_lt
    omega
  | succ bound ih =>
    rw [planOn]
    cases next : g.nextStep? p s with
    | none => exact .stop next
    | some step =>
      have fewer := (chosen_of_nextStep? next).left_lt
      exact .step next (ih (by omega))

/-- What the planning loop lists may be run, and it fixes nothing. -/
theorem Proceeds.runs (proceeds : g.Proceeds p s steps) (coherent : g.Coherent)
    (wellFormed : p.WellFormed) :
    g.Runs p s steps ∧ ∀ step ∈ steps, ∀ m : Assignment, m.Respects step := by
  induction proceeds with
  | stop stuck =>
    exact ⟨.done (done_of_nextStep?_eq_none wellFormed stuck), fun step mem => by cases mem⟩
  | step next _ ih =>
    have chosen := chosen_of_nextStep? next
    exact ⟨.step (chosen.ready coherent) ih.1, List.forall_mem_cons.2 ⟨chosen.respects, ih.2⟩⟩

theorem left_le_slotCount (p : Pattern) (s : Progress) : left p s ≤ p.slotCount :=
  Nat.add_le_add (vacancies_le _ _) (vacancies_le _ _)

theorem planMatch_eq (g : Graph) (p : Pattern) (row : BindingRow) :
    g.planMatch p row = (g.boundNodes row p.nodes.zipIdx).bind fun nodes =>
      (g.boundRels row p.rels.zipIdx).bind fun rels =>
        .ok ⟨(nodes ++ rels) ++
          g.planOn p p.slotCount ((nodes ++ rels).foldl (.after p) .start)⟩ := rfl

/-- The steps for all slots that the row fixes. -/
def fixedSteps (p : Pattern) (row : BindingRow) : List MatchStep :=
  p.nodes.zipIdx.filterMap (fixedNode? row) ++ p.rels.zipIdx.filterMap (fixedRel? row)

/-- Among the steps for what the row fixes there is one for each slot that it fixes, and
no other. -/
theorem mem_fixedSteps_iff :
    step ∈ fixedSteps p row ↔
      (∃ position slot id, p.nodes[position]? = some slot ∧
        slot.bound? row = some (.node id) ∧ step = .boundNode position id) ∨
      ∃ position slot id, p.rels[position]? = some slot ∧
        slot.bound? row = some (.relationship id) ∧ step = .boundRel position id := by
  rw [fixedSteps, List.mem_append, List.mem_filterMap, List.mem_filterMap]
  refine or_congr ⟨fun mem => ?_, fun fixed => ?_⟩ ⟨fun mem => ?_, fun fixed => ?_⟩
  · obtain ⟨⟨slot, position⟩, slots, fixed⟩ := mem
    obtain ⟨id, bound, rfl⟩ := fixedNode?_eq_some fixed
    exact ⟨position, slot, id, List.mem_zipIdx_iff_getElem?.1 slots, bound, rfl⟩
  · obtain ⟨position, slot, id, found, bound, rfl⟩ := fixed
    refine ⟨(slot, position), List.mem_zipIdx_iff_getElem?.2 found, ?_⟩
    rw [fixedNode?, bound]
    rfl
  · obtain ⟨⟨slot, position⟩, slots, fixed⟩ := mem
    obtain ⟨id, bound, rfl⟩ := fixedRel?_eq_some fixed
    exact ⟨position, slot, id, List.mem_zipIdx_iff_getElem?.1 slots, bound, rfl⟩
  · obtain ⟨position, slot, id, found, bound, rfl⟩ := fixed
    refine ⟨(slot, position), List.mem_zipIdx_iff_getElem?.2 found, ?_⟩
    rw [fixedRel?, bound]
    rfl

/-- The row fixes no slot to what cannot be in it. -/
structure Usable (g : Graph) (p : Pattern) (row : BindingRow) : Prop where
  nodes : ∀ slot ∈ p.nodes, slot.Usable g row
  rels : ∀ slot ∈ p.rels, slot.Usable g row

theorem planMatch_eq_ok (usable : g.Usable p row) :
    g.planMatch p row = .ok ⟨fixedSteps p row ++
      g.planOn p p.slotCount ((fixedSteps p row).foldl (.after p) .start)⟩ := by
  have nodes : g.boundNodes row p.nodes.zipIdx = .ok (p.nodes.zipIdx.filterMap (fixedNode? row)) :=
    boundNodes_eq_ok_iff.2
      ⟨fun n mem => usable.nodes n.1 (List.fst_mem_of_mem_zipIdx mem), rfl⟩
  have rels : g.boundRels row p.rels.zipIdx = .ok (p.rels.zipIdx.filterMap (fixedRel? row)) :=
    boundRels_eq_ok_iff.2 ⟨fun r mem => usable.rels r.1 (List.fst_mem_of_mem_zipIdx mem), rfl⟩
  rw [planMatch_eq, nodes]
  show (g.boundRels row p.rels.zipIdx).bind _ = _
  rw [rels]
  rfl

/-- Planning fails only over what the row fixes. -/
theorem usable_of_planMatch {plan : MatchPlan} (planned : g.planMatch p row = .ok plan) :
    g.Usable p row := by
  obtain ⟨nodes, first, planned⟩ := of_bind_eq_ok planned
  obtain ⟨rels, second, _⟩ := of_bind_eq_ok planned
  refine ⟨fun slot mem => ?_, fun slot mem => ?_⟩
  · obtain ⟨position, inside, rfl⟩ := List.getElem_of_mem mem
    exact (boundNodes_eq_ok_iff.1 first).1 (_, position)
      (List.mem_zipIdx_iff_getElem?.2 (List.getElem?_eq_getElem inside))
  · obtain ⟨position, inside, rfl⟩ := List.getElem_of_mem mem
    exact (boundRels_eq_ok_iff.1 second).1 (_, position)
      (List.mem_zipIdx_iff_getElem?.2 (List.getElem?_eq_getElem inside))

/-- A plan runs from the vacant assignment on. -/
theorem Coherent.planMatch_runs (coherent : g.Coherent) (wellFormed : p.WellFormed)
    (row : BindingRow) : g.Runs p .start (fixedSteps p row ++
      g.planOn p p.slotCount ((fixedSteps p row).foldl (.after p) .start)) := by
  have rest := (g.planOn_proceeds (left_le_slotCount p
    ((fixedSteps p row).foldl (.after p) .start))).runs coherent wellFormed
  have apart : ∀ {α : Type} (slots : List α), (slots.zipIdx.map Prod.snd).Nodup := fun slots => by
    rw [List.zipIdx_map_snd]
    exact List.nodup_range' _
  rw [fixedSteps, List.append_assoc]
  refine runs_fixedNodes (apart _) (fun _ _ mem => by cases mem) fun s' placed reached => ?_
  refine runs_fixedRels (apart _) (fun r mem => List.mem_zipIdx_iff_getElem?.1 mem)
    (fun r _ mem => ?_) ?_
  · rw [placed] at mem
    cases mem
  · rw [← reached, ← List.foldl_append]
    exact rest.1

/-- The steps of a plan run. -/
theorem Coherent.runs_of_planMatch (coherent : g.Coherent) (wellFormed : p.WellFormed)
    {plan : MatchPlan} (planned : g.planMatch p row = .ok plan) : g.Runs p .start plan.steps := by
  cases planned.symm.trans (planMatch_eq_ok (usable_of_planMatch planned))
  exact coherent.planMatch_runs wellFormed row

/-! ## What the row asks of a match -/

/-- The slots that the row fixes have in them what it fixes them to. -/
structure RespectsRow (p : Pattern) (row : BindingRow) (m : Assignment) : Prop where
  node : ∀ position slot id, p.nodes[position]? = some slot →
    slot.bound? row = some (.node id) → m.node? position = some id
  rel : ∀ position slot id, p.rels[position]? = some slot →
    slot.bound? row = some (.relationship id) → m.rel? position = some id

theorem respectsRow_iff : RespectsRow p row m ↔ ∀ step ∈ fixedSteps p row, m.Respects step := by
  constructor
  · intro respects step mem
    rcases mem_fixedSteps_iff.1 mem with
      ⟨position, slot, id, found, bound, rfl⟩ | ⟨position, slot, id, found, bound, rfl⟩
    · exact respects.node position slot id found bound
    · exact respects.rel position slot id found bound
  · intro respects
    refine ⟨fun position slot id found bound => ?_, fun position slot id found bound => ?_⟩
    · exact respects _ (mem_fixedSteps_iff.2 (.inl ⟨position, slot, id, found, bound, rfl⟩))
    · exact respects _ (mem_fixedSteps_iff.2 (.inr ⟨position, slot, id, found, bound, rfl⟩))

/-- The steps of a plan ask of a match just what the row asks of it. -/
theorem Coherent.respects_plan_iff (coherent : g.Coherent) (wellFormed : p.WellFormed) :
    (∀ step ∈ fixedSteps p row ++
      g.planOn p p.slotCount ((fixedSteps p row).foldl (.after p) .start), m.Respects step) ↔
      RespectsRow p row m := by
  have rest := (g.planOn_proceeds (left_le_slotCount p
    ((fixedSteps p row).foldl (.after p) .start))).runs coherent wellFormed
  rw [respectsRow_iff, List.forall_mem_append]
  exact and_iff_left fun step mem => rest.2 step mem m

end Graph

end PropertyGraph
