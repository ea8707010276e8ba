import PropertyGraph.Proofs.Match.Planning

/-!
# The order of a plan

Where steps run one after the other, each is ready after the ones before it, and
the relationship slots that are placed by then are slots of the pattern, none of
them placed twice and all of them with both ends bound. So a plan places every
relationship slot once, and the nodes that it scanned for can be read off it just
for the slots that it scans for.
-/

namespace PropertyGraph

namespace MatchStep

/-- The relationship slot that the step places. -/
def rel? : MatchStep → Option Nat
  | .boundRel rel _ => some rel
  | .expand rel _ _ => some rel
  | .check rel => some rel
  | _ => none

/-- The node slots that the step binds. -/
def slots (p : Pattern) : MatchStep → List Nat
  | .boundNode slot _ => [slot]
  | .boundRel rel _ => match p.rels[rel]? with
    | some slot => [slot.source, slot.target]
    | none => []
  | .seed slot _ _ => [slot]
  | .expand _ _ goal => [goal]
  | .check _ => []

/-- Whether the step scans. -/
def isSeed : MatchStep → Bool
  | .seed _ _ _ => true
  | _ => false

end MatchStep

namespace Progress

variable {p : Pattern} {s : Progress}

/-! ## The account after some steps -/

theorem bound_after (s : Progress) (step : MatchStep) :
    (s.after p step).bound = step.slots p ++ s.bound := by
  cases step with
  | boundRel rel id =>
    rw [after, MatchStep.slots]
    cases p.rels[rel]? <;> rfl
  | _ => rfl

theorem placed_after (s : Progress) (step : MatchStep) :
    (s.after p step).placed = step.rel?.toList ++ s.placed := by
  cases step with
  | boundRel rel id =>
    rw [after]
    cases p.rels[rel]? <;> rfl
  | _ => rfl

theorem mem_bound_foldl {steps : List MatchStep} {slot : Nat} :
    slot ∈ (steps.foldl (.after p) s).bound ↔
      (∃ step ∈ steps, slot ∈ step.slots p) ∨ slot ∈ s.bound := by
  induction steps generalizing s with
  | nil => simp
  | cons step rest ih =>
    rw [List.foldl_cons, ih, bound_after, List.mem_append, List.exists_mem_cons_iff, or_left_comm,
      or_assoc]

theorem placed_foldl (steps : List MatchStep) (s : Progress) :
    (steps.foldl (.after p) s).placed =
      (steps.filterMap MatchStep.rel?).reverse ++ s.placed := by
  induction steps generalizing s with
  | nil => rfl
  | cons step rest ih =>
    rw [List.foldl_cons, ih, placed_after, List.filterMap_cons]
    cases step.rel? with
    | none => rfl
    | some rel => simp

/-- The relationship slots that are placed are slots of the pattern, each placed
once and with both ends bound. -/
structure Settled (p : Pattern) (s : Progress) : Prop where
  once : s.placed.Nodup
  ends : ∀ position ∈ s.placed, ∃ slot, p.rels[position]? = some slot ∧
    slot.source ∈ s.bound ∧ slot.target ∈ s.bound

theorem Settled.start : Settled p .start where
  once := List.nodup_nil
  ends _ mem := by cases mem

theorem Settled.bind (settled : s.Settled p) (slot : Nat) :
    Settled p { s with bound := slot :: s.bound } where
  once := settled.once
  ends position mem := by
    obtain ⟨rel, found, source, target⟩ := settled.ends position mem
    exact ⟨rel, found, List.mem_cons_of_mem _ source, List.mem_cons_of_mem _ target⟩

theorem Settled.place (settled : s.Settled p) {position : Nat} {slot : RelSlot}
    {bound : List Nat} (found : p.rels[position]? = some slot) (waiting : position ∉ s.placed)
    (more : s.bound ⊆ bound) (source : slot.source ∈ bound) (target : slot.target ∈ bound) :
    Settled p ⟨bound, position :: s.placed⟩ where
  once := List.nodup_cons.2 ⟨waiting, settled.once⟩
  ends q mem := by
    rcases List.mem_cons.1 mem with rfl | mem
    · exact ⟨slot, found, source, target⟩
    · obtain ⟨rel, found', source', target'⟩ := settled.ends q mem
      exact ⟨rel, found', more source', more target'⟩

end Progress

namespace Graph

variable {g : Graph} {p : Pattern} {row : BindingRow} {s : Progress} {step : MatchStep}
  {steps before later : List MatchStep}

theorem isSeed_of_mem_fixedSteps (mem : step ∈ fixedSteps p row) : step.isSeed = false := by
  rcases mem_fixedSteps_iff.1 mem with ⟨_, _, _, _, _, rfl⟩ | ⟨_, _, _, _, _, rfl⟩ <;> rfl

theorem Ready.settled (ready : g.Ready p s step) (settled : s.Settled p) :
    (s.after p step).Settled p := by
  cases ready with
  | @boundNode slot node _ => exact settled.bind slot
  | boundRel id found waiting =>
    rw [Progress.after, found]
    exact settled.place found waiting
      (fun _ mem => List.mem_cons_of_mem _ (List.mem_cons_of_mem _ mem))
      List.mem_cons_self (List.mem_cons_of_mem _ List.mem_cons_self)
  | @seed slot _ _ _ _ _ _ => exact settled.bind slot
  | @expand position origin goal slot found waiting bound ends =>
    have more : s.bound ⊆ goal :: s.bound := List.subset_cons_self goal s.bound
    rcases ends with ⟨rfl, rfl⟩ | ⟨rfl, rfl⟩
    · exact settled.place found waiting more (more bound) List.mem_cons_self
    · exact settled.place found waiting more List.mem_cons_self (more bound)
  | check found waiting source target =>
    exact settled.place found waiting (fun _ mem => mem) source target

/-! ## Steps that run -/

theorem Runs.of_append (runs : g.Runs p s (before ++ later)) :
    g.Runs p (before.foldl (.after p) s) later := by
  induction before generalizing s with
  | nil => exact runs
  | cons step rest ih =>
    cases runs with
    | step _ runs => exact ih runs

/-- Every step is ready after the ones before it. -/
theorem Runs.ready (runs : g.Runs p s (before ++ step :: later)) :
    g.Ready p (before.foldl (.after p) s) step := by
  cases runs.of_append with
  | step ready _ => exact ready

theorem Runs.settled (runs : g.Runs p s (before ++ later)) (settled : s.Settled p) :
    (before.foldl (.after p) s).Settled p := by
  induction before generalizing s with
  | nil => exact settled
  | cons step rest ih =>
    cases runs with
    | step ready runs => exact ih runs (ready.settled settled)

theorem Runs.leaves_none (runs : g.Runs p s steps) :
    Progress.Done p (steps.foldl (.after p) s) := by
  rw [← List.append_nil steps] at runs
  cases runs.of_append with
  | done done => exact done

/-- Steps that run place every relationship slot once. -/
theorem Runs.rels_perm (runs : g.Runs p .start steps) :
    (steps.filterMap MatchStep.rel?).Perm (List.range p.rels.length) := by
  have all := runs.leaves_none.rels
  rw [← List.append_nil steps] at runs
  have settled := runs.settled .start
  have placed := Progress.placed_foldl (p := p) steps .start
  rw [Progress.start, List.append_nil] at placed
  rw [← List.reverse_perm', ← placed]
  refine (List.perm_ext_iff_of_nodup settled.once List.nodup_range).2 fun position => ?_
  rw [List.mem_range]
  refine ⟨fun mem => ?_, all position⟩
  obtain ⟨slot, found, _, _⟩ := settled.ends position mem
  exact (List.getElem?_eq_some_iff.1 found).1

/-! ## What was scanned -/

theorem Runs.unbound_of_seed (runs : g.Runs p s steps) {slot : Nat} {scan : ScanPlan}
    {candidates : List NodeId} (mem : .seed slot scan candidates ∈ steps) : slot ∉ s.bound := by
  obtain ⟨before, later, rfl⟩ := List.append_of_mem mem
  intro bound
  cases runs.ready with
  | seed _ unbound _ _ => exact unbound (Progress.mem_bound_foldl.2 (.inr bound))

/-- What was scanned can be read off just for the slots that are scanned for. -/
theorem Runs.candidates?_eq_some_iff (runs : g.Runs p s steps) {slot : Nat}
    {candidates : List NodeId} :
    MatchPlan.candidates? ⟨steps⟩ slot = some candidates ↔
      ∃ scan, .seed slot scan candidates ∈ steps := by
  induction runs with
  | done _ => simp [MatchPlan.candidates?]
  | @step s step steps ready runs ih =>
    rw [MatchPlan.candidates?] at ih ⊢
    rw [List.findSome?_cons]
    cases step with
    | seed seeded scan found =>
      dsimp only
      by_cases same : seeded = slot
      · subst same
        -- The slot is bound from here on, so no later step scans for it.
        have never : ∀ scan', MatchStep.seed seeded scan' candidates ∉ steps := fun scan' mem =>
          runs.unbound_of_seed mem List.mem_cons_self
        rw [if_pos rfl]
        simp [never, eq_comm]
      · rw [if_neg same]
        simp [ih, Ne.symm same]
    | _ => simp [ih]

/-! ## Steps that the loop lists -/

theorem Proceeds.of_append (proceeds : g.Proceeds p s (before ++ later)) :
    g.Proceeds p (before.foldl (.after p) s) later := by
  induction before generalizing s with
  | nil => exact proceeds
  | cons step rest ih =>
    cases proceeds with
    | step _ proceeds => exact ih proceeds

/-- Every step that the loop lists is the one to take after the ones before it. -/
theorem Proceeds.chosen (proceeds : g.Proceeds p s (before ++ step :: later)) :
    g.Chosen p (before.foldl (.after p) s) step := by
  cases proceeds.of_append with
  | step next _ => exact chosen_of_nextStep? next

end Graph

end PropertyGraph
