import PropertyGraph.Proofs.Statement.Create

/-!
# How a merge ends

A merge matches and, where there is no match, creates. Both look at what the row
binds: matching finds out whether it is live and of the right kind, and what is
left to creation is whether the bound nodes are accepted and no relationship is
bound. So a merge ends in one of five ways, and in all but the last one it
leaves the execution as it was.
-/

namespace PropertyGraph

namespace Execution

variable {g : Graph} {p : Pattern} {row : BindingRow} {x : Execution}

/-! ## The check after matching -/

theorem checkCreation_of_rejects (usable : g.Usable p row)
    (rejects : ∃ slot ∈ p.nodes, Rejects g row slot) :
    ∃ slot ∈ p.nodes, Rejects g row slot ∧
      checkCreation g p row = .error (.boundConstraintViolation slot.displayName) := by
  obtain ⟨slot, mem, rejected, failed⟩ := mapM_boundNode?_eq_error usable.nodes rejects
  refine ⟨slot, mem, rejected, ?_⟩
  rw [checkCreation, failed]
  rfl

/-- Once the bound nodes are accepted, the check looks for a bound relationship. -/
theorem checkCreation_of_accepts (usable : g.Usable p row)
    (accepts : ∀ slot ∈ p.nodes, ¬Rejects g row slot) :
    checkCreation g p row = match p.rels.find? fun slot => (slot.bound? row).isSome with
      | some slot => .error (.boundRelationship slot.displayName)
      | none => .ok (p.nodes.map (fixedNode row)) := by
  rw [checkCreation, mapM_boundNode?_eq_ok usable.nodes accepts]
  rfl

theorem checkCreation_of_bound (usable : g.Usable p row)
    (accepts : ∀ slot ∈ p.nodes, ¬Rejects g row slot)
    (bound : ∃ slot ∈ p.rels, (slot.bound? row).isSome = true) :
    ∃ slot ∈ p.rels, (slot.bound? row).isSome = true ∧
      checkCreation g p row = .error (.boundRelationship slot.displayName) := by
  obtain ⟨slot, found⟩ := Option.isSome_iff_exists.1 (List.find?_isSome.2 bound)
  have isBound := List.find?_some (p := fun slot : RelSlot => (slot.bound? row).isSome) found
  refine ⟨slot, List.mem_of_find?_eq_some found, isBound, ?_⟩
  rw [checkCreation_of_accepts usable accepts, found]

theorem checkCreation_eq_ok (usable : g.Usable p row)
    (accepts : ∀ slot ∈ p.nodes, ¬Rejects g row slot)
    (unbound : ∀ slot ∈ p.rels, slot.bound? row = none) :
    checkCreation g p row = .ok (p.nodes.map (fixedNode row)) := by
  have missed : p.rels.find? (fun slot => (slot.bound? row).isSome) = none := by
    refine List.find?_eq_none.2 fun slot mem => ?_
    rw [unbound slot mem]
    exact Bool.false_ne_true
  rw [checkCreation_of_accepts usable accepts, missed]

/-! ## Merging -/

theorem merge_of_error {e : PatternError} (failed : x.graph.findAll p row = .error e) :
    merge p row x = (.error (.pattern e), x) := by
  rw [merge, RefusableAction.bind_get, failed]
  rfl

theorem merge_of_cons {first : BindingRow} {rest : List BindingRow}
    (found : x.graph.findAll p row = .ok (first :: rest)) :
    merge p row x = (.ok (first :: rest), x) := by
  rw [merge, RefusableAction.bind_get, found]
  rfl

/-- Without a match a merge is a creation. -/
theorem merge_of_nil (missed : x.graph.findAll p row = .ok []) :
    merge p row x = (create p row >>= fun created => pure [created]) x := by
  rw [merge, RefusableAction.bind_get, missed]

theorem merge_of_nil_of_refused {e : ExecutionError} (missed : x.graph.findAll p row = .ok [])
    (refused : checkCreation x.graph p row = .error e) : merge p row x = (.error e, x) := by
  rw [merge_of_nil missed, RefusableAction.bind_of_error (create_of_error refused)]

/-- The ways in which a merge can end: matching fails, there are matches, a bound
node is not accepted, a relationship is bound, or the pattern is created. -/
inductive MergeCase where
  | unmatchable
  | matched
  | rejected
  | bound
  | created
  deriving DecidableEq

/-- When a merge ends in each of the ways, and what it answers and leaves then. -/
def MergeCase.Holds (p : Pattern) (row : BindingRow) (x : Execution) : MergeCase → Prop
  | unmatchable => ∃ e, x.graph.findAll p row = .error e ∧
    merge p row x = (.error (.pattern e), x)
  | matched => ∃ first rest, x.graph.findAll p row = .ok (first :: rest) ∧
    merge p row x = (.ok (first :: rest), x)
  | rejected => x.graph.findAll p row = .ok [] ∧
    ∃ slot ∈ p.nodes, Rejects x.graph row slot ∧
      merge p row x = (.error (.boundConstraintViolation slot.displayName), x)
  | bound => x.graph.findAll p row = .ok [] ∧ (∀ slot ∈ p.nodes, ¬Rejects x.graph row slot) ∧
    ∃ slot ∈ p.rels, (slot.bound? row).isSome = true ∧
      merge p row x = (.error (.boundRelationship slot.displayName), x)
  | created => x.graph.findAll p row = .ok [] ∧ (∀ slot ∈ p.nodes, ¬Rejects x.graph row slot) ∧
    (∀ slot ∈ p.rels, slot.bound? row = none) ∧
    ∃ m x', merge p row x = (.ok [p.bindRow row m.assignment], x') ∧
      Creates p row x.graph x'.graph m

theorem MergeCase.Holds.unique {one other : MergeCase} (holds : one.Holds p row x)
    (holds' : other.Holds p row x) : one = other := by
  -- Any two of the ways want different answers of the matching or bindings that
  -- contradict each other.
  cases one <;> cases other <;> grind [MergeCase.Holds]

/-- A merge that finds no match ends in one of the last three ways. -/
theorem exists_mergeCase_of_nil (stored : x.graph.Stored) (wellFormed : p.WellFormed)
    (missed : x.graph.findAll p row = .ok []) :
    MergeCase.rejected.Holds p row x ∨ MergeCase.bound.Holds p row x ∨
      MergeCase.created.Holds p row x := by
  obtain ⟨plan, planned, _⟩ := map_eq_ok_iff.1 missed
  have usable := Graph.usable_of_planMatch planned
  by_cases rejects : ∃ slot ∈ p.nodes, Rejects x.graph row slot
  · obtain ⟨slot, mem, rejected, refused⟩ := checkCreation_of_rejects usable rejects
    exact .inl ⟨missed, slot, mem, rejected, merge_of_nil_of_refused missed refused⟩
  have accepts : ∀ slot ∈ p.nodes, ¬Rejects x.graph row slot :=
    fun slot mem rejected => rejects ⟨slot, mem, rejected⟩
  by_cases bound : ∃ slot ∈ p.rels, (slot.bound? row).isSome = true
  · obtain ⟨slot, mem, isBound, refused⟩ := checkCreation_of_bound usable accepts bound
    exact .inr (.inl ⟨missed, accepts, slot, mem, isBound, merge_of_nil_of_refused missed refused⟩)
  have unbound : ∀ slot ∈ p.rels, slot.bound? row = none :=
    fun slot mem => Option.not_isSome_iff_eq_none.1 fun isBound => bound ⟨slot, mem, isBound⟩
  obtain ⟨m, x', ran, creates⟩ :=
    create_of_ok stored wellFormed (checkCreation_eq_ok usable accepts unbound)
  refine .inr (.inr ⟨missed, accepts, unbound, m, x', ?_, creates⟩)
  rw [merge_of_nil missed, RefusableAction.bind_of_ok ran]
  rfl

theorem exists_mergeCase (stored : x.graph.Stored) (wellFormed : p.WellFormed) :
    ∃ way : MergeCase, way.Holds p row x := by
  cases found : x.graph.findAll p row with
  | error e => exact ⟨.unmatchable, e, found, merge_of_error found⟩
  | ok rows =>
    cases rows with
    | cons first rest => exact ⟨.matched, first, rest, found, merge_of_cons found⟩
    | nil =>
      rcases exists_mergeCase_of_nil stored wellFormed found with holds | holds | holds
      · exact ⟨_, holds⟩
      · exact ⟨_, holds⟩
      · exact ⟨_, holds⟩

/-- In an execution on a reachable graph a merge of a pattern of paths ends in
exactly one of the five ways. A creation that fails leaves the execution as it
was, and one that passes the check creates the pattern. -/
theorem merge_outcome (x : Execution) (reachable : x.graph.Reachable) {paths : List Path}
    (compiled : Pattern.ofPaths paths = .ok p) (row : BindingRow) :
    (∃! way : MergeCase, way.Holds p row x) ∧
      (∀ e x', create p row x = (.error e, x') → x' = x) ∧
      ∀ bound, checkCreation x.graph p row = .ok bound →
        ∃ m x', create p row x = (.ok (p.bindRow row m.assignment), x') ∧
          Creates p row x.graph x'.graph m := by
  have stored := reachable.coherent.stored
  have wellFormed := Pattern.wellFormed_of_ofPaths compiled
  refine ⟨?_, fun e x' failed => ?_, fun bound checked => create_of_ok stored wellFormed checked⟩
  · obtain ⟨way, holds⟩ : ∃ way : MergeCase, way.Holds p row x := exists_mergeCase stored wellFormed
    exact ⟨way, holds, fun other holds' => holds'.unique holds⟩
  · cases checked : checkCreation x.graph p row with
    | error e' =>
      rw [create_of_error checked] at failed
      exact (congrArg Prod.snd failed).symm
    | ok bound =>
      obtain ⟨m, x'', ran, _⟩ := create_of_ok stored wellFormed checked
      rw [ran] at failed
      cases failed

/-- Merged twice, a pattern is created and then found; and a merge from a row that fixes
its variables to what cannot be there is refused. -/
theorem merge_outcome_repeated :
    let path : Path := ⟨[⟨some "p", some "Person", []⟩, ⟨some "d", none, []⟩],
      [⟨some "r", "owns", .outgoing, []⟩]⟩
    let p : Pattern := ⟨[⟨some "p", ["Person"], []⟩, ⟨some "d", [], []⟩],
      [⟨some "r", "owns", 0, 1, []⟩], [.node 0, .rel 0, .node 1]⟩
    let start : Execution := .start (.empty .standard)
    let x := (merge p .empty start).2
    let stray : BindingRow := ⟨[("p", .node ⟨9⟩)]⟩
    let unlabelled : BindingRow := ⟨[("p", .node ⟨2⟩)]⟩
    let loop : BindingRow := ⟨[("p", .node ⟨1⟩), ("r", .relationship ⟨1⟩), ("d", .node ⟨1⟩)]⟩
    x.graph.Reachable ∧ Pattern.ofPaths [path] = .ok p ∧ MergeCase.matched.Holds p .empty x ∧
      (∃! way : MergeCase, way.Holds p .empty x) ∧
      -- The merge before had created the pattern, after the check had been passed.
      start.graph.Reachable ∧ MergeCase.created.Holds p .empty start ∧
      (∃! way : MergeCase, way.Holds p .empty start) ∧
      checkCreation start.graph p .empty = .ok [none, none] ∧
      (∃ m x', create p .empty start = (.ok (p.bindRow .empty m.assignment), x') ∧
        Creates p .empty start.graph x'.graph m) ∧
      -- From rows that fix what cannot be there a merge is refused.
      MergeCase.unmatchable.Holds p stray x ∧ (∃! way : MergeCase, way.Holds p stray x) ∧
      MergeCase.rejected.Holds p unlabelled x ∧
      (∃! way : MergeCase, way.Holds p unlabelled x) ∧
      MergeCase.bound.Holds p loop x ∧ (∃! way : MergeCase, way.Holds p loop x) ∧
      create p loop x = (.error (.boundRelationship "r"), x) := by
  intro path p start x stray unlabelled loop
  have started : Reachable start := .start (.empty .standard)
  have reachable : x.graph.Reachable := (started.merge p .empty).graph
  have compiled : Pattern.ofPaths [path] = .ok p := rfl
  have once := fun row => (merge_outcome x reachable compiled row).1
  have matched : MergeCase.matched.Holds p .empty x := by
    have found : x.graph.findAll p .empty = .ok
        [⟨[("p", .node ⟨1⟩), ("r", .relationship ⟨1⟩), ("d", .node ⟨2⟩)]⟩] := by decide +kernel
    exact ⟨_, _, found, merge_of_cons found⟩
  have checked : checkCreation start.graph p .empty = .ok [none, none] := rfl
  obtain ⟨fresh, -, creates⟩ := merge_outcome start started.graph compiled .empty
  have created : MergeCase.created.Holds p .empty start := by
    have missed : start.graph.findAll p .empty = .ok [] := by decide +kernel
    obtain ⟨m, x', ran, pattern⟩ := creates _ checked
    refine ⟨missed, ?_, ?_, m, x', ?_, pattern⟩
    · rintro slot mem ⟨id, node, fixed, -⟩
      rcases List.mem_pair.1 mem with rfl | rfl <;> cases fixed
    · intro slot mem
      rw [List.mem_singleton.1 mem]
      rfl
    · rw [merge_of_nil missed, RefusableAction.bind_of_ok ran]
      rfl
  have strayed : MergeCase.unmatchable.Holds p stray x := by
    have failed : x.graph.findAll p stray = .error (.graph (.nodeNotFound ⟨9⟩)) := by
      decide +kernel
    exact ⟨_, failed, merge_of_error failed⟩
  have rejected : MergeCase.rejected.Holds p unlabelled x := by
    have missed : x.graph.findAll p unlabelled = .ok [] := by decide +kernel
    have failed : merge p unlabelled x = (.error (.boundConstraintViolation "p"), x) :=
      merge_of_nil_of_refused missed rfl
    exact ⟨missed, ⟨some "p", ["Person"], []⟩, List.mem_cons_self, ⟨⟨2⟩, _, rfl, rfl, rfl⟩, failed⟩
  have refused : checkCreation x.graph p loop = .error (.boundRelationship "r") := rfl
  have bound : MergeCase.bound.Holds p loop x := by
    have missed : x.graph.findAll p loop = .ok [] := by decide +kernel
    have failed := merge_of_nil_of_refused missed refused
    have accepts : ∀ slot ∈ p.nodes, ¬Rejects x.graph loop slot := by
      rintro slot mem ⟨id, node, fixed, live, unfit⟩
      rcases List.mem_pair.1 mem with rfl | rfl <;> cases fixed <;> cases live <;> cases unfit
    exact ⟨missed, accepts, ⟨some "r", "owns", 0, 1, []⟩, List.mem_cons_self, rfl, failed⟩
  exact ⟨reachable, compiled, matched, once .empty, started.graph, created, fresh, checked,
    creates _ checked, strayed, once stray, rejected, once unlabelled, bound, once loop,
    create_of_error refused⟩

end Execution

end PropertyGraph
