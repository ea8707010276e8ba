import PropertyGraph.Proofs.Match.Components

/-!
# Plans are well formed

Wherever planning does not fail, the loop ends by itself and the plan it leaves
places every relationship slot once, binds every node slot, takes no step before
its time and scans once for each component of the pattern that the row fixes
nothing of. The search that runs through it finds no end vacant that a step
starts from.
-/

namespace PropertyGraph

namespace Graph

variable {g : Graph} {p : Pattern} {row : BindingRow} {s : Progress} {step : MatchStep}
  {listed before later : List MatchStep} {plan : MatchPlan}

/-- A step is ready, and if it follows a relationship slot, the slot that it leads
to is not bound. -/
structure Timely (g : Graph) (p : Pattern) (s : Progress) (step : MatchStep) : Prop where
  ready : g.Ready p s step
  onward : ∀ position origin goal, step = .expand position origin goal → goal ∉ s.bound

/-- What makes a plan for a pattern and a row well formed. -/
structure WellPlanned (g : Graph) (p : Pattern) (row : BindingRow) (plan : MatchPlan) : Prop where
  /-- After the steps for what the row fixes come those of the loop, up to its end. -/
  loop : ∃ listed, plan.steps = fixedSteps p row ++ listed ∧
    g.Proceeds p ((fixedSteps p row).foldl (.after p) .start) listed
  timely : ∀ before step later, plan.steps = before ++ step :: later →
    g.Timely p (before.foldl (.after p) .start) step
  rels : (plan.steps.filterMap MatchStep.rel?).Perm (List.range p.rels.length)
  nodes : ∀ slot < p.nodes.length, slot ∈ (plan.steps.foldl (Progress.after p) .start).bound
  seeds : plan.steps.countP MatchStep.isSeed =
    {component : p.slotGraph.ConnectedComponent |
      ∀ slot ∈ component.supp, ¬p.Fixes row slot}.ncard
  candidates : ∀ slot found, plan.candidates? slot = some found ↔
    ∃ scan, .seed slot scan found ∈ plan.steps
  scans : ∀ position scan found, .seed position scan found ∈ plan.steps →
    ∃ slot, p.nodes[position]? = some slot ∧ scan = g.slotScan slot ∧ found = g.runScan scan
  /-- It makes no difference what the search would do where an end that a step
  starts from is vacant. -/
  search : ∀ stuck limit, g.searchOr p stuck limit plan.steps ⟨.vacant p, #[]⟩ =
    g.search p limit plan.steps ⟨.vacant p, #[]⟩

theorem Chosen.timely (chosen : g.Chosen p s step) (coherent : g.Coherent) :
    g.Timely p s step where
  ready := chosen.ready coherent
  onward position origin goal expands := by
    cases expands
    cases chosen with
    | expand _ _ _ unbound _ => exact unbound

theorem ne_expand_of_mem_fixedSteps (mem : step ∈ fixedSteps p row) (position origin goal : Nat) :
    step ≠ .expand position origin goal := by
  rcases mem_fixedSteps_iff.1 mem with ⟨_, _, _, _, _, rfl⟩ | ⟨_, _, _, _, _, rfl⟩ <;>
    exact fun same => by cases same

/-- Every step of a plan comes in its time, whether it is for what the row fixes or
listed by the loop. -/
theorem Runs.timely (runs : g.Runs p .start (fixedSteps p row ++ listed))
    (proceeds : g.Proceeds p ((fixedSteps p row).foldl (.after p) .start) listed)
    (coherent : g.Coherent) (split : fixedSteps p row ++ listed = before ++ step :: later) :
    g.Timely p (before.foldl (.after p) .start) step := by
  have inLoop : ∀ rest, before = fixedSteps p row ++ rest → listed = rest ++ step :: later →
      g.Timely p (before.foldl (.after p) .start) step := by
    rintro rest rfl rfl
    rw [List.foldl_append]
    exact proceeds.chosen.timely coherent
  rcases List.append_eq_append_iff.1 split with ⟨rest, same, listed⟩ | ⟨rest, same, listed⟩
  · exact inLoop rest same listed
  · cases rest with
    | nil => exact inLoop [] (by simpa using same.symm) listed.symm
    | cons first rest =>
      cases listed
      have mem : step ∈ fixedSteps p row := by simp [same]
      refine ⟨(split ▸ runs).ready, fun position origin goal expands => ?_⟩
      exact (ne_expand_of_mem_fixedSteps mem position origin goal expands).elim

/-- In a reachable graph, every plan for a pattern of paths and a row is well
formed. -/
theorem wellPlanned_of_planMatch (reachable : g.Reachable) {paths : List Path}
    (compiled : Pattern.ofPaths paths = .ok p) (planned : g.planMatch p row = .ok plan) :
    g.WellPlanned p row plan := by
  have coherent := reachable.coherent
  have wellFormed := Pattern.wellFormed_of_ofPaths compiled
  have usable := usable_of_planMatch planned
  have runs := coherent.planMatch_runs wellFormed row
  have proceeds := g.planOn_proceeds (left_le_slotCount p
    ((fixedSteps p row).foldl (.after p) .start))
  cases planned.symm.trans (planMatch_eq_ok usable)
  generalize g.planOn p p.slotCount ((fixedSteps p row).foldl (.after p) .start) = listed
    at runs proceeds
  have settled := runs.settled .start
  refine
    { loop := ⟨listed, rfl, proceeds⟩
      timely := fun before step later split => runs.timely proceeds coherent split
      rels := runs.rels_perm
      nodes := runs.leaves_none.nodes
      seeds := ?_
      candidates := fun slot found => runs.candidates?_eq_some_iff
      scans := ?_
      search := ?_ }
  · -- What the row fixes is not scanned for, so all scans are those of the loop.
    have none : (fixedSteps p row).countP MatchStep.isSeed = 0 :=
      List.countP_eq_zero.2 fun step mem => by simp [isSeed_of_mem_fixedSteps mem]
    rw [List.countP_append, none, Nat.zero_add,
      proceeds.countP_isSeed coherent wellFormed settled, Pattern.vacantComponents]
    simp only [mem_bound_fixedSteps_iff usable]
  · intro position scan found mem
    rcases List.mem_append.1 mem with mem | mem
    · cases isSeed_of_mem_fixedSteps mem
    · obtain ⟨before, later, rfl⟩ := List.append_of_mem mem
      cases proceeds.chosen with
      | seed found _ _ => exact ⟨_, found, rfl, rfl⟩
  · intro stuck limit
    have vacant := Assignment.vacant_consistent g p
    exact (runs.collects_or vacant stuck limit _ rfl).trans (runs.collects vacant limit _ rfl).symm

/-- Of three components one is reached from a fixed node, one is a loop at a labelled node
and one a cycle; the last two are scanned for. -/
theorem wellPlanned_with_fixed_loop_and_cycle :
    let g := (Graph.empty .standard).afterAll [.createNode ["Person"] [], .createNode ["Dog"] [],
      .createRelationship "owns" ⟨1⟩ ⟨2⟩ []]
    let paths : List Path := [
      ⟨[⟨some "x", none, []⟩, ⟨some "y", none, []⟩], [⟨none, "owns", .outgoing, []⟩]⟩,
      ⟨[⟨some "a", none, []⟩, ⟨some "b", none, []⟩, ⟨some "a", none, []⟩],
        [⟨none, "owns", .outgoing, []⟩, ⟨none, "owns", .outgoing, []⟩]⟩,
      ⟨[⟨some "c", some "Dog", []⟩, ⟨some "c", none, []⟩], [⟨none, "owns", .outgoing, []⟩]⟩]
    let p : Pattern := ⟨[⟨some "x", [], []⟩, ⟨some "y", [], []⟩, ⟨some "a", [], []⟩,
        ⟨some "b", [], []⟩, ⟨some "c", ["Dog"], []⟩],
      [⟨none, "owns", 0, 1, []⟩, ⟨none, "owns", 2, 3, []⟩, ⟨none, "owns", 3, 2, []⟩,
        ⟨none, "owns", 4, 4, []⟩],
      [.node 0, .rel 0, .node 1, .node 2, .rel 1, .node 3, .rel 2, .node 4, .rel 3]⟩
    let row : BindingRow := ⟨[("x", .node ⟨1⟩)]⟩
    let plan : MatchPlan := ⟨[.boundNode 0 ⟨1⟩, .expand 0 0 1,
      .seed 4 (.byLabel "Dog" []) [⟨2⟩], .check 3,
      .seed 2 (.everyNode []) [⟨1⟩, ⟨2⟩], .expand 1 2 3, .check 2]⟩
    g.Reachable ∧ Pattern.ofPaths paths = .ok p ∧ g.planMatch p row = .ok plan ∧
      g.WellPlanned p row plan := by
  intro g paths p row plan
  have reachable : g.Reachable := (Reachable.empty .standard).afterAll _
  have compiled : Pattern.ofPaths paths = .ok p := rfl
  have planned : g.planMatch p row = .ok plan := rfl
  exact ⟨reachable, compiled, planned, wellPlanned_of_planMatch reachable compiled planned⟩

end Graph

end PropertyGraph
