import PropertyGraph.Proofs.Match.Schedule

/-!
# Planning in an arena

Planning can do its work in place: it ticks off the slots that are bound and placed,
and it keeps the nodes that it scanned for apart from the steps, in an arena with room
for each node slot. Looking for the cheapest slot to scan for, it gathers candidates for
every slot that is not bound yet, unless it has them already; when nothing is left to do,
it clears the arena of those that no step scans for. That comes to the same plan: it is
refused for the same reasons, lists the same steps, and finds in the arena the candidates
of the slots that are scanned for, and of no others.
-/

namespace PropertyGraph

/-! ## Ticks -/

/-- Whether a position is ticked off. -/
def ticked {n : Nat} (ticks : Vector Bool n) (i : Nat) : Bool := (ticks[i]?).getD false

section Ticks

variable {n i q : Nat} {ticks : Vector Bool n}

theorem ticked_setIfInBounds (inside : q < n) :
    ticked (ticks.setIfInBounds i true) q = (q == i || ticked ticks q) := by
  rw [ticked, ticked, Vector.getElem?_setIfInBounds]
  by_cases here : i = q
  · subst here
    simp [inside]
  · have elsewhere : (q == i) = false := beq_false_of_ne (Ne.symm here)
    rw [if_neg here, elsewhere, Bool.false_or]

theorem ticked_eq_contains {used : List Nat} (inside : q < n)
    (same : ticked ticks q = used.contains q) :
    ticked (ticks.setIfInBounds i true) q = (i :: used).contains q := by
  rw [ticked_setIfInBounds inside, same, List.contains_cons]

/-- How many positions are not ticked off. -/
def unticked (ticks : Vector Bool n) : Nat := ticks.toList.count false

theorem unticked_setIfInBounds_le (ticks : Vector Bool n) (i : Nat) :
    unticked (ticks.setIfInBounds i true) ≤ unticked ticks := by
  rw [unticked, unticked, Vector.toList_setIfInBounds]
  rcases Nat.lt_or_ge i ticks.toList.length with inside | outside
  · rw [List.count_set inside]
    exact Nat.sub_le _ _
  · have same : ticks.toList.set i true = ticks.toList := List.set_eq_of_length_le outside
    exact Nat.le_of_eq (congrArg (List.count false) same)

theorem unticked_setIfInBounds_lt (inside : i < n) (waiting : ticked ticks i = false) :
    unticked (ticks.setIfInBounds i true) < unticked ticks := by
  have inList : i < ticks.toList.length := by simpa using inside
  have here : ticks.toList[i] = false := by
    rw [ticked, Vector.getElem?_eq_getElem inside] at waiting
    simpa using waiting
  have waits : 0 < ticks.toList.count false :=
    List.count_pos_iff.2 (here ▸ List.getElem_mem inList)
  rw [unticked, unticked, Vector.toList_setIfInBounds, List.count_set inList, here]
  simp only [beq_self_eq_true, if_true, Bool.true_eq_false, beq_iff_eq, if_false]
  omega

end Ticks

/-! ## Plans with an arena -/

/-- One step of a plan that keeps the nodes to try elsewhere. -/
inductive BareStep where
  | boundNode (slot : Nat) (node : NodeId)
  | boundRel (rel : Nat) (id : RelId)
  | scan (slot : Nat) (plan : ScanPlan)
  | expand (rel origin goal : Nat)
  | check (rel : Nat)

/-- Whether the step scans for a slot. -/
def BareStep.scansFor (slot : Nat) : BareStep → Bool
  | .scan scanned _ => scanned == slot
  | _ => false

/-- The step without the nodes to try. -/
def MatchStep.bare : MatchStep → BareStep
  | .boundNode slot node => .boundNode slot node
  | .boundRel rel id => .boundRel rel id
  | .seed slot scan _ => .scan slot scan
  | .expand rel origin goal => .expand rel origin goal
  | .check rel => .check rel

/-- Room for the candidates of each node slot. -/
abbrev Arena (p : Pattern) := Vector (Option (List NodeId)) p.nodes.length

/-- The candidates in the arena for a slot. -/
def Arena.found? {p : Pattern} (arena : Arena p) (slot : Nat) : Option (List NodeId) :=
  (arena[slot]?).join

/-- The candidates in one arena are in the other as well. -/
def Arena.Within {p : Pattern} (arena arena' : Arena p) : Prop :=
  ∀ slot found, arena.found? slot = some found → arena'.found? slot = some found

/-- The step with the candidates that the arena has for its slot. -/
def BareStep.filled {p : Pattern} (arena : Arena p) : BareStep → MatchStep
  | .boundNode slot node => .boundNode slot node
  | .boundRel rel id => .boundRel rel id
  | .scan slot plan => .seed slot plan ((arena.found? slot).getD [])
  | .expand rel origin goal => .expand rel origin goal
  | .check rel => .check rel

/-- The steps of a match, in order, and the arena beside them. -/
structure ArenaPlan (p : Pattern) where
  steps : List BareStep
  arena : Arena p

/-- The plan in which each scan comes with its candidates in the arena. -/
def ArenaPlan.filled {p : Pattern} (plan : ArenaPlan p) : MatchPlan :=
  ⟨plan.steps.map (BareStep.filled plan.arena)⟩

/-! ## The least of what is seen so far -/

/-- The better of what is best so far and one more: that only if it measures less. -/
def keepLess (measure : α → Nat) : Option α → α → Option α
  | none, a => some a
  | some best, a => if measure a < measure best then some a else some best

section Least

variable {α β : Type} {measure : β → Nat}

theorem eq_of_keepLess {best : Option β} {a b : β} (kept : keepLess measure best a = some b) :
    best = some b ∨ a = b := by
  cases best with
  | none => exact .inr (Option.some.inj kept)
  | some best =>
    rw [keepLess] at kept
    split at kept
    · exact .inr (Option.some.inj kept)
    · exact .inl kept

theorem foldl_keepLess_some (as : List β) (best : β) :
    as.foldl (keepLess measure) (some best) = leastBy? measure (best :: as) := by
  induction as generalizing best with
  | nil => rfl
  | cons a as ih =>
    rw [List.foldl_cons, keepLess]
    by_cases less : measure a < measure best
    · rw [if_pos less, ih]
      simp only [leastBy?]
      cases leastBy? measure as <;> grind
    · rw [if_neg less, ih]
      simp only [leastBy?]
      cases leastBy? measure as <;> grind

/-- Keeping the better one all along leaves the first of the least. -/
theorem foldl_keepLess (as : List β) : as.foldl (keepLess measure) none = leastBy? measure as := by
  cases as with
  | nil => rfl
  | cons a as => exact foldl_keepLess_some as a

theorem leastBy?_map (f : α → β) (as : List α) :
    leastBy? measure (as.map f) = (leastBy? (fun a => measure (f a)) as).map f := by
  induction as with
  | nil => rfl
  | cons a as ih =>
    rw [List.map_cons, leastBy?, leastBy?, ih]
    cases leastBy? (fun a => measure (f a)) as with
    | none => rfl
    | some least =>
      dsimp only [Option.map]
      split <;> rfl

end Least

/-! ## Gathering candidates -/

namespace Graph

variable {g : Graph} {p : Pattern} {arena : Arena p}

/-- The candidates for a slot: those in the arena, or else what a scan finds, which
is put there. -/
def getOrScan (g : Graph) (arena : Arena p) (position : Nat) (scan : ScanPlan) :
    List NodeId × Arena p :=
  match arena.found? position with
  | some found => (found, arena)
  | none =>
    let found := g.runScan scan
    (found, arena.setIfInBounds position (some found))

/-- Go through slots for the first one with the fewest candidates: its scan and how
many there are, and the arena after candidates for all of them were gathered. -/
def cheapest (g : Graph) :
    List (NodeSlot × Nat) → Arena p → Option (Nat × ScanPlan × Nat) →
      Option (Nat × ScanPlan × Nat) × Arena p
  | [], arena, best => (best, arena)
  | (slot, position) :: rest, arena, best =>
    let scan := g.slotScan slot
    let got := g.getOrScan arena position scan
    g.cheapest rest got.2 (keepLess (fun seed => seed.2.2) best (position, scan, got.1.length))

theorem mem_of_cheapest {slots : List (NodeSlot × Nat)} {best : Option (Nat × ScanPlan × Nat)}
    {seed : Nat × ScanPlan × Nat} (found : (g.cheapest slots arena best).1 = some seed) :
    best = some seed ∨ ∃ n ∈ slots, n.2 = seed.1 := by
  induction slots generalizing arena best with
  | nil => exact .inl found
  | cons n rest ih =>
    rcases ih found with kept | ⟨later, mem, same⟩
    · rcases eq_of_keepLess kept with kept | here
      · exact .inl kept
      · exact .inr ⟨n, List.mem_cons_self, congrArg Prod.fst here⟩
    · exact .inr ⟨later, List.mem_cons_of_mem _ mem, same⟩

/-- What is in the arena for a slot is what a scan for it finds. -/
def Gathered (g : Graph) (arena : Arena p) : Prop :=
  ∀ position slot, p.nodes[position]? = some slot →
    ∀ found, arena.found? position = some found → found = g.runScan (g.slotScan slot)

theorem found?_setIfInBounds (arena : Arena p) {position : Nat}
    (inside : position < p.nodes.length) (found : Option (List NodeId)) (q : Nat) :
    Arena.found? (arena.setIfInBounds position found) q =
      if q = position then found else arena.found? q := by
  rw [Arena.found?, Vector.getElem?_setIfInBounds]
  by_cases here : position = q
  · subst here
    simp [inside]
  · rw [if_neg here, if_neg (Ne.symm here)]
    rfl

/-- Whether they are looked up or scanned for, the candidates are those of a scan, and
they are in the arena afterwards. -/
theorem Gathered.getOrScan (gathered : g.Gathered arena) {position : Nat} {slot : NodeSlot}
    (found : p.nodes[position]? = some slot) :
    ∃ arena', g.getOrScan arena position (g.slotScan slot) =
        (g.runScan (g.slotScan slot), arena') ∧
      g.Gathered arena' ∧ Arena.Within arena arena' ∧
      arena'.found? position = some (g.runScan (g.slotScan slot)) := by
  rw [Graph.getOrScan]
  cases there : arena.found? position with
  | some candidates =>
    have same := gathered position slot found candidates there
    subst same
    exact ⟨arena, rfl, gathered, fun _ _ has => has, there⟩
  | none =>
    have after := found?_setIfInBounds arena (List.getElem?_eq_some_iff.1 found).1
      (some (g.runScan (g.slotScan slot)))
    refine ⟨_, rfl, fun q slot' found' candidates has => ?_, fun q candidates has => ?_, ?_⟩
    · rw [after] at has
      split at has
      · rename_i here
        subst here
        cases found.symm.trans found'
        exact (Option.some.inj has).symm
      · exact gathered q slot' found' candidates has
    · rw [after]
      split
      · rename_i here
        rw [here, there] at has
        cases has
      · exact has
    · rw [after, if_pos rfl]

/-- Going through slots leaves the best of them, and candidates for all of them in the
arena. -/
theorem Gathered.cheapest {slots : List (NodeSlot × Nat)} (gathered : g.Gathered arena)
    (found : ∀ n ∈ slots, p.nodes[n.2]? = some n.1) (best : Option (Nat × ScanPlan × Nat)) :
    ∃ arena', g.cheapest slots arena best =
        ((slots.map fun n =>
            (n.2, g.slotScan n.1, (g.runScan (g.slotScan n.1)).length)).foldl
          (keepLess fun seed => seed.2.2) best, arena') ∧
      g.Gathered arena' ∧ Arena.Within arena arena' ∧
      ∀ n ∈ slots, arena'.found? n.2 = some (g.runScan (g.slotScan n.1)) := by
  induction slots generalizing arena best with
  | nil => exact ⟨arena, rfl, gathered, fun _ _ has => has, by simp⟩
  | cons n rest ih =>
    rcases n with ⟨slot, position⟩
    obtain ⟨here, later⟩ := List.forall_mem_cons.1 found
    obtain ⟨middle, got, gathered, more, there⟩ := gathered.getOrScan here
    obtain ⟨arena', went, gathered, more', all⟩ := ih gathered later _
    refine ⟨arena', ?_, gathered, fun q _ has => more' q _ (more q _ has), ?_⟩
    · rw [Graph.cheapest, got]
      exact went
    · exact List.forall_mem_cons.2 ⟨more' _ _ there, all⟩

end Graph

/-! ## The planning loop -/

/-- A plan in the making: the steps listed, the candidates gathered, and the slots
that are bound and placed. -/
structure Draft (p : Pattern) where
  steps : List BareStep
  arena : Arena p
  bound : Vector Bool p.nodes.length
  placed : Vector Bool p.rels.length

namespace Draft

variable {g : Graph} {p : Pattern} {d d' : Draft p}

/-- Nothing is listed or gathered. -/
def blank (p : Pattern) : Draft p :=
  ⟨[], .replicate _ none, .replicate _ false, .replicate _ false⟩

/-- Tick off a node slot. -/
def bind (d : Draft p) (slot : Nat) : Draft p :=
  { d with bound := d.bound.setIfInBounds slot true }

/-- Tick off a relationship slot. -/
def place (d : Draft p) (rel : Nat) : Draft p :=
  { d with placed := d.placed.setIfInBounds rel true }

/-- List one more step and tick off what it binds and places. -/
def push (d : Draft p) (step : BareStep) : Draft p :=
  let d := { d with steps := d.steps ++ [step] }
  match step with
  | .boundNode slot _ => d.bind slot
  | .boundRel rel _ => match p.rels[rel]? with
    | some slot => ((d.place rel).bind slot.source).bind slot.target
    | none => d.place rel
  | .scan slot _ => d.bind slot
  | .expand rel _ goal => (d.place rel).bind goal
  | .check rel => d.place rel

/-- One turn of the planning loop. The loop ends where no slot is unbound, since none of
them is the cheapest then. -/
def turn? (g : Graph) (d : Draft p) : Option (Draft p) :=
  let closed := p.rels.zipIdx.find? fun r =>
    !ticked d.placed r.2 && (ticked d.bound r.1.source && ticked d.bound r.1.target)
  match closed with
  | some (_, rel) => some (d.push (.check rel))
  | none =>
    let frontier := p.rels.zipIdx.find? fun r =>
      !ticked d.placed r.2 && (ticked d.bound r.1.source || ticked d.bound r.1.target)
    match frontier with
    | some (slot, rel) =>
      if ticked d.bound slot.source then some (d.push (.expand rel slot.source slot.target))
      else some (d.push (.expand rel slot.target slot.source))
    | none =>
      let unbound := p.nodes.zipIdx.filter fun n => !ticked d.bound n.2
      let gathered := g.cheapest unbound d.arena none
      gathered.1.map fun best => push { d with arena := gathered.2 } (.scan best.1 best.2.1)

/-- How many slots are not ticked off. -/
def left (d : Draft p) : Nat := unticked d.bound + unticked d.placed

theorem waiting_of_find? {test : RelSlot × Nat → Bool} {r : RelSlot × Nat}
    (found : p.rels.zipIdx.find? (fun r => !ticked d.placed r.2 && test r) = some r) :
    r.2 < p.rels.length ∧ ticked d.placed r.2 = false := by
  have waiting := List.find?_some found
  rw [Bool.and_eq_true, Bool.not_eq_true'] at waiting
  have mem := List.mem_zipIdx_iff_getElem?.1 (List.mem_of_find?_eq_some found)
  exact ⟨(List.getElem?_eq_some_iff.1 mem).1, waiting.1⟩

/-- Every turn of the loop ticks a slot off. -/
theorem left_lt_of_turn? (turn : d.turn? g = some d') : d'.left < d.left := by
  unfold turn? at turn
  dsimp only at turn
  split at turn
  · rename_i closed
    obtain ⟨inside, waiting⟩ := waiting_of_find? closed
    rw [← Option.some.inj turn]
    exact Nat.add_lt_add_left (unticked_setIfInBounds_lt inside waiting) _
  · split at turn
    · rename_i frontier
      obtain ⟨inside, waiting⟩ := waiting_of_find? frontier
      have fewer := unticked_setIfInBounds_lt inside waiting
      split at turn <;> rw [← Option.some.inj turn] <;>
        exact Nat.add_lt_add_of_le_of_lt (unticked_setIfInBounds_le _ _) fewer
    · -- The cheapest slot is one of those that are not bound.
      obtain ⟨best, found, rfl⟩ := Option.map_eq_some_iff.1 turn
      rcases Graph.mem_of_cheapest found with found | ⟨n, mem, same⟩
      · cases found
      · rw [List.mem_filter, List.mem_zipIdx_iff_getElem?, Bool.not_eq_true', same] at mem
        exact Nat.add_lt_add_right
          (unticked_setIfInBounds_lt (List.getElem?_eq_some_iff.1 mem.1).1 mem.2) _

/-- The draft when the planning loop has ended. -/
def complete (g : Graph) (d : Draft p) : Draft p :=
  match _ : d.turn? g with
  | none => d
  | some d' => d'.complete g
termination_by d.left
decreasing_by exact left_lt_of_turn? ‹_›

/-- The arena without the candidates that no step scans for. -/
def clear (d : Draft p) : Arena p :=
  d.arena.mapIdx fun slot found => if d.steps.any (BareStep.scansFor slot) then found else none

/-! ## In step with planning -/

/-- A draft has got as far as planning has: the same steps are listed, the same slots
are bound and placed, and the candidates of every scan are in the arena. -/
structure Follows (g : Graph) (d : Draft p) (s : Progress) (listed : List MatchStep) :
    Prop where
  steps : d.steps = listed.map MatchStep.bare
  bound : ∀ slot < p.nodes.length, ticked d.bound slot = s.binds slot
  placed : ∀ rel < p.rels.length, ticked d.placed rel = s.places rel
  gathered : g.Gathered d.arena
  seeds : ∀ slot scan found, MatchStep.seed slot scan found ∈ listed →
    d.arena.found? slot = some found

section Follows

variable {s : Progress} {listed : List MatchStep} {step : MatchStep}

theorem blank_follows (g : Graph) (p : Pattern) : (blank p).Follows g .start [] where
  steps := rfl
  bound slot inside := by simp [ticked, blank, inside, Progress.binds, Progress.start]
  placed rel inside := by simp [ticked, blank, inside, Progress.places, Progress.start]
  gathered position slot found candidates has := by
    rw [blank, Arena.found?, Vector.getElem?_replicate] at has
    split at has <;> cases has
  seeds _ _ _ mem := by cases mem

theorem steps_push (d : Draft p) (step : BareStep) : (d.push step).steps = d.steps ++ [step] := by
  cases step with
  | boundRel rel id =>
    rw [push]
    cases p.rels[rel]? <;> rfl
  | _ => rfl

theorem arena_push (d : Draft p) (step : BareStep) : (d.push step).arena = d.arena := by
  cases step with
  | boundRel rel id =>
    rw [push]
    cases p.rels[rel]? <;> rfl
  | _ => rfl

theorem bound_push (d : Draft p) (step : MatchStep) {slot : Nat} (inside : slot < p.nodes.length)
    (same : ticked d.bound slot = s.binds slot) :
    ticked (d.push step.bare).bound slot = (s.after p step).binds slot := by
  cases step with
  | boundNode _ _ => exact ticked_eq_contains inside same
  | boundRel rel id =>
    rw [MatchStep.bare, push, Progress.after]
    cases p.rels[rel]? with
    | none => exact same
    | some ends =>
      have both := ticked_eq_contains (i := ends.target) inside
        (ticked_eq_contains (i := ends.source) inside same)
      rw [List.contains_cons, List.contains_cons, Bool.or_left_comm, ← List.contains_cons,
        ← List.contains_cons] at both
      exact both
  | seed _ _ _ => exact ticked_eq_contains inside same
  | expand _ _ _ => exact ticked_eq_contains inside same
  | check _ => exact same

theorem placed_push (d : Draft p) (step : MatchStep) {rel : Nat} (inside : rel < p.rels.length)
    (same : ticked d.placed rel = s.places rel) :
    ticked (d.push step.bare).placed rel = (s.after p step).places rel := by
  cases step with
  | boundNode _ _ => exact same
  | boundRel rel id =>
    rw [MatchStep.bare, push, Progress.after]
    cases p.rels[rel]? <;> exact ticked_eq_contains inside same
  | seed _ _ _ => exact same
  | expand _ _ _ => exact ticked_eq_contains inside same
  | check _ => exact ticked_eq_contains inside same

/-- One more step keeps a draft in step, if its candidates are in the arena. -/
theorem Follows.push (follows : d.Follows g s listed)
    (scanned : ∀ slot scan found, step = .seed slot scan found →
      d.arena.found? slot = some found) :
    (d.push step.bare).Follows g (s.after p step) (listed ++ [step]) where
  steps := by rw [steps_push, follows.steps, List.map_append, List.map_singleton]
  bound slot inside := bound_push d step inside (follows.bound slot inside)
  placed rel inside := placed_push d step inside (follows.placed rel inside)
  gathered := arena_push d _ ▸ follows.gathered
  seeds slot scan found mem := by
    rw [arena_push]
    rcases List.mem_append.1 mem with mem | mem
    · exact follows.seeds slot scan found mem
    · exact scanned slot scan found (List.mem_singleton.1 mem).symm

/-- Gathering more candidates keeps a draft in step. -/
theorem Follows.gather (follows : d.Follows g s listed) {arena : Arena p}
    (gathered : g.Gathered arena) (more : Arena.Within d.arena arena) :
    Follows g { d with arena } s listed :=
  { follows with
    gathered
    seeds := fun slot scan found mem => more slot found (follows.seeds slot scan found mem) }

/-- Where the loop looks for a relationship slot, planning looks for the same one. -/
theorem Follows.find?_eq (follows : d.Follows g s listed) (wellFormed : p.WellFormed)
    (test : Bool → Bool → Bool) :
    (p.rels.zipIdx.find? fun r => !ticked d.placed r.2 &&
        test (ticked d.bound r.1.source) (ticked d.bound r.1.target)) =
      (p.rels.zipIdx.filter fun r => !s.places r.2).find? fun r =>
        test (s.binds r.1.source) (s.binds r.1.target) := by
  rw [← List.head?_filter, ← List.head?_filter, List.filter_filter]
  refine congrArg List.head? (List.filter_congr fun r mem => ?_)
  have found := List.mem_zipIdx_iff_getElem?.1 mem
  have slot : r.1 ∈ p.rels := List.fst_mem_of_mem_zipIdx mem
  rw [follows.placed r.2 (List.getElem?_eq_some_iff.1 found).1,
    follows.bound _ (wellFormed.source _ slot), follows.bound _ (wellFormed.target _ slot),
    Bool.and_comm]

theorem Follows.unbound_eq (follows : d.Follows g s listed) :
    (p.nodes.zipIdx.filter fun n => !ticked d.bound n.2) =
      p.nodes.zipIdx.filter fun n => !s.binds n.2 := by
  refine List.filter_congr fun n mem => ?_
  have found := List.mem_zipIdx_iff_getElem?.1 mem
  rw [follows.bound n.2 (List.getElem?_eq_some_iff.1 found).1]

/-- A turn of the loop takes the step that planning takes, if there is one, and gathers
its candidates before. -/
theorem Follows.turn?_eq (follows : d.Follows g s listed) (wellFormed : p.WellFormed) :
    ∃ arena, g.Gathered arena ∧ Arena.Within d.arena arena ∧
      d.turn? g = (g.nextStep? p s).map (fun step => Draft.push { d with arena } step.bare) ∧
      ∀ slot scan found, g.nextStep? p s = some (.seed slot scan found) →
        arena.found? slot = some found := by
  have closing := follows.find?_eq wellFormed and
  have leading := follows.find?_eq wellFormed or
  have kept : Arena.Within d.arena d.arena := fun _ _ has => has
  rw [turn?, Graph.nextStep?]
  dsimp only
  rw [closing]
  cases closed : (p.rels.zipIdx.filter fun r => !s.places r.2).find? fun r =>
      s.binds r.1.source && s.binds r.1.target with
  | some r => exact ⟨d.arena, follows.gathered, kept, rfl, fun _ _ _ next => by cases next⟩
  | none =>
    dsimp only
    rw [leading]
    cases frontier : (p.rels.zipIdx.filter fun r => !s.places r.2).find? fun r =>
        s.binds r.1.source || s.binds r.1.target with
    | some r =>
      have waiting := (List.mem_filter.1 (List.mem_of_find?_eq_some frontier)).1
      have inside := wellFormed.source r.1 (List.fst_mem_of_mem_zipIdx waiting)
      refine ⟨d.arena, follows.gathered, kept, ?_⟩
      dsimp only
      rw [follows.bound _ inside]
      split
      · exact ⟨rfl, fun _ _ _ next => by cases next⟩
      · exact ⟨rfl, fun _ _ _ next => by cases next⟩
    | none =>
      dsimp only
      rw [follows.unbound_eq]
      -- What is the cheapest by number is the cheapest by its candidates, so both sides
      -- pick the first of the least of one list.
      have slots : ∀ n ∈ p.nodes.zipIdx.filter (fun n => !s.binds n.2),
          p.nodes[n.2]? = some n.1 := fun n mem =>
        List.mem_zipIdx_iff_getElem?.1 (List.mem_filter.1 mem).1
      obtain ⟨arena, went, gathered, more, all⟩ := follows.gathered.cheapest slots none
      refine ⟨arena, gathered, more, ?_, fun slot scan found next => ?_⟩
      · rw [went, foldl_keepLess, leastBy?_map, Graph.seeds, leastBy?_map]
        dsimp only
        cases leastBy? _ _ <;> rfl
      · obtain ⟨seed, least, same⟩ := Option.map_eq_some_iff.1 next
        obtain ⟨n, mem, rfl⟩ := List.mem_map.1 (mem_of_leastBy? least)
        cases same
        exact all n mem

theorem complete_of_none (stuck : d.turn? g = none) : d.complete g = d := by
  rw [complete]
  split
  · rfl
  · rename_i turn
    cases stuck.symm.trans turn

theorem complete_of_some (turn : d.turn? g = some d') : d.complete g = d'.complete g := by
  rw [complete]
  split
  · rename_i stuck
    cases turn.symm.trans stuck
  · rename_i turn'
    cases turn.symm.trans turn'
    rfl

/-- What planning lists before its loop, a draft lists as well. -/
theorem Follows.foldl_push (follows : d.Follows g s listed) (more : List MatchStep)
    (noSeed : ∀ step ∈ more, step.isSeed = false) :
    ((more.map MatchStep.bare).foldl Draft.push d).Follows g (more.foldl (.after p) s)
      (listed ++ more) := by
  induction more generalizing d s listed with
  | nil => simpa using follows
  | cons step rest ih =>
    obtain ⟨first, later⟩ := List.forall_mem_cons.1 noSeed
    have next : (d.push step.bare).Follows g (s.after p step) (listed ++ [step]) := by
      refine follows.push fun slot scan found same => ?_
      rw [same] at first
      cases first
    have done := ih next later
    rw [List.append_assoc, List.singleton_append] at done
    exact done

/-- Turn by turn, the loop lists what planning lists. -/
theorem Follows.complete (follows : d.Follows g s listed) (wellFormed : p.WellFormed)
    {more : List MatchStep} (proceeds : g.Proceeds p s more) :
    ∃ s', (d.complete g).Follows g s' (listed ++ more) := by
  induction proceeds generalizing d listed with
  | stop stuck =>
    obtain ⟨arena, _, _, turn, _⟩ := follows.turn?_eq wellFormed
    rw [stuck] at turn
    rw [complete_of_none turn, List.append_nil]
    exact ⟨_, follows⟩
  | step next _ ih =>
    obtain ⟨arena, gathered, more, turn, seeds⟩ := follows.turn?_eq wellFormed
    rw [next] at turn
    have further := (follows.gather gathered more).push fun slot scan found same =>
      seeds slot scan found (same ▸ next)
    obtain ⟨s', done⟩ := ih further
    rw [List.append_assoc, List.singleton_append] at done
    rw [complete_of_some turn]
    exact ⟨s', done⟩

/-! ## The arena in the end -/

theorem found?_clear (d : Draft p) (slot : Nat) :
    d.clear.found? slot =
      if d.steps.any (BareStep.scansFor slot) then d.arena.found? slot else none := by
  rw [clear, Arena.found?, Vector.getElem?_mapIdx, Arena.found?]
  cases d.arena[slot]? <;> simp

/-- Clearing leaves in the arena what the steps have as candidates of a slot. -/
theorem Follows.found?_clear (follows : d.Follows g s listed) (slot : Nat) :
    d.clear.found? slot = MatchPlan.candidates? ⟨listed⟩ slot := by
  have seeds := follows.seeds slot
  rw [Draft.found?_clear, follows.steps, MatchPlan.candidates?]
  generalize d.arena.found? slot = kept at seeds
  clear follows
  induction listed with
  | nil => rfl
  | cons step rest ih =>
    have later := ih fun scan found mem => seeds scan found (List.mem_cons_of_mem _ mem)
    rw [List.map_cons, List.any_cons, List.findSome?_cons]
    cases step with
    | seed scanned scan found =>
      rw [MatchStep.bare, BareStep.scansFor]
      by_cases here : scanned = slot
      · subst here
        simp [seeds scan found List.mem_cons_self]
      · dsimp only
        rw [beq_false_of_ne here, Bool.false_or, if_neg here]
        exact later
    | _ => exact later

/-- With the candidates in the arena, the steps are the ones that planning lists. -/
theorem Follows.filled_eq (follows : d.Follows g s listed) :
    d.steps.map (BareStep.filled d.clear) = listed := by
  rw [follows.steps, List.map_map]
  refine (List.map_congr_left fun step mem => ?_).trans (List.map_id listed)
  cases step with
  | seed slot scan found =>
    have scanned : d.steps.any (BareStep.scansFor slot) = true := by
      rw [follows.steps]
      exact List.any_eq_true.2 ⟨_, List.mem_map_of_mem mem, beq_self_eq_true slot⟩
    have kept : d.clear.found? slot = some found := by
      rw [Draft.found?_clear, if_pos scanned, follows.seeds slot scan found mem]
    rw [Function.comp_apply, MatchStep.bare, BareStep.filled, kept]
    rfl
  | _ => rfl

end Follows

end Draft

namespace Graph

/-- The plan for matching a pattern from a row, made in an arena. -/
def planInArena (g : Graph) (p : Pattern) (row : BindingRow) :
    Except PatternError (ArenaPlan p) := do
  let nodes ← g.boundNodes row p.nodes.zipIdx
  let rels ← g.boundRels row p.rels.zipIdx
  let fixed := (nodes ++ rels).map MatchStep.bare
  let drafted := (fixed.foldl Draft.push (.blank p)).complete g
  return ⟨drafted.steps, drafted.clear⟩

variable {g : Graph} {p : Pattern} {row : BindingRow}

theorem planInArena_eq_bind (g : Graph) (p : Pattern) (row : BindingRow) :
    g.planInArena p row = (g.boundNodes row p.nodes.zipIdx).bind fun nodes =>
      (g.boundRels row p.rels.zipIdx).bind fun rels =>
        let drafted := (((nodes ++ rels).map MatchStep.bare).foldl Draft.push (.blank p)).complete g
        .ok ⟨drafted.steps, drafted.clear⟩ := rfl

/-- In an arena planning is refused for the same reasons, and it comes to the same plan,
in which the candidates of every scan are those in the arena and there are none in the
arena for any other slot. -/
theorem planInArena_eq (g : Graph) (wellFormed : p.WellFormed) (row : BindingRow) :
    ((g.planInArena p row).map fun plan => (plan.filled, plan.arena.found?)) =
      (g.planMatch p row).map fun plan => (plan, plan.candidates?) := by
  rw [planMatch_eq, planInArena_eq_bind]
  cases nodes : g.boundNodes row p.nodes.zipIdx with
  | error e => rfl
  | ok fixedNodes =>
    cases rels : g.boundRels row p.rels.zipIdx with
    | error e => rfl
    | ok fixedRels =>
      have fixed : fixedNodes ++ fixedRels = fixedSteps p row := by
        rw [fixedSteps, (boundNodes_eq_ok_iff.1 nodes).2, (boundRels_eq_ok_iff.1 rels).2]
      dsimp only [Except.bind, Except.map]
      rw [fixed]
      have begun := (Draft.blank_follows g p).foldl_push (fixedSteps p row)
        fun _ mem => isSeed_of_mem_fixedSteps mem
      have proceeds := g.planOn_proceeds (left_le_slotCount p
        ((fixedSteps p row).foldl (.after p) .start))
      obtain ⟨s, done⟩ := begun.complete wellFormed proceeds
      rw [List.nil_append] at done
      have plan := congrArg MatchPlan.mk done.filled_eq
      exact congrArg Except.ok (Prod.ext plan (funext done.found?_clear))

end Graph

end PropertyGraph
