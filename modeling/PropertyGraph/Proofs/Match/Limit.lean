import PropertyGraph.Proofs.Match.Exactness
import PropertyGraph.Proofs.Match.Schedule

/-!
# Searches that are cut short

A limit cuts the search short and changes nothing else: with it the search finds the
first of the assignments that it finds without, in the same order. That rests on one
assignment being filled and vacated all along. Every call that the search makes, to
search on or to try a relationship, leaves the assignment as it found it, whether the
call went through, was turned back or was cut short.
-/

namespace PropertyGraph

/-- A call made in the course of a search: to search on through the steps that are
left, or to try a relationship in a slot before that. -/
inductive SearchCall where
  | search (steps : List MatchStep) (s : Search)
  | tryRel (steps : List MatchStep) (position : Nat) (id : RelId) (s : Search)

namespace SearchCall

/-- The search as the call finds it. -/
def start : SearchCall → Search
  | search _ s => s
  | tryRel _ _ _ s => s

/-- The search as the call leaves it. -/
def finish (g : Graph) (p : Pattern) (limit : Option Nat) : SearchCall → Search
  | search steps s => g.search p limit steps s
  | tryRel steps position id s => g.tryRel p (g.search p limit steps) position id s

end SearchCall

namespace Graph

variable {g : Graph} {p : Pattern} {a : Assignment} {limit : Option Nat}
  {call call' : SearchCall}

/-! ## Calls -/

/-- One call makes another. There is one case for each place at which the search calls
itself or tries a relationship; candidates that were tried before have left the search
in the state in which the next one finds it. -/
inductive Makes (g : Graph) (p : Pattern) (limit : Option Nat) : SearchCall → SearchCall → Prop
  | boundNode {slot : Nat} {node : NodeId} {steps : List MatchStep} {s : Search} :
    s.isFull limit = false → g.fits p slot node = true →
    Makes g p limit (.search (.boundNode slot node :: steps) s)
      (.search steps (s.setNode slot (some node)))
  | boundRel {position : Nat} {id : RelId} {steps : List MatchStep} {s : Search} :
    s.isFull limit = false →
    Makes g p limit (.search (.boundRel position id :: steps) s) (.tryRel steps position id s)
  | seed {slot : Nat} {scan : ScanPlan} {tried rest : List NodeId} {node : NodeId}
      {steps : List MatchStep} {s t : Search} :
    s.isFull limit = false →
    t = s.each limit (fun node s =>
      if g.fits p slot node then g.search p limit steps (s.setNode slot (some node)) else s)
      tried →
    t.isFull limit = false → g.fits p slot node = true →
    Makes g p limit (.search (.seed slot scan (tried ++ node :: rest) :: steps) s)
      (.search steps (t.setNode slot (some node)))
  | expand {position origin goal : Nat} {slot : RelSlot} {node : NodeId}
      {tried rest : List RelId} {id : RelId} {steps : List MatchStep} {s t : Search} :
    s.isFull limit = false → p.rels[position]? = some slot →
    s.current.node? origin = some node →
    g.followed slot origin node = tried ++ id :: rest →
    t = s.each limit (g.tryRel p (g.search p limit steps) position) tried →
    t.isFull limit = false →
    Makes g p limit (.search (.expand position origin goal :: steps) s)
      (.tryRel steps position id t)
  | check {position : Nat} {slot : RelSlot} {source target : NodeId}
      {tried rest : List RelId} {id : RelId} {steps : List MatchStep} {s t : Search} :
    s.isFull limit = false → p.rels[position]? = some slot →
    s.current.node? slot.source = some source → s.current.node? slot.target = some target →
    g.edgesBetween source target (some slot.type) = tried ++ id :: rest →
    t = s.each limit (g.tryRel p (g.search p limit steps) position) tried →
    t.isFull limit = false →
    Makes g p limit (.search (.check position :: steps) s) (.tryRel steps position id t)
  | tryRel {position : Nat} {slot : RelSlot} {id : RelId} {rel : Relationship}
      {seated : Assignment} {steps : List MatchStep} {s : Search} :
    p.rels[position]? = some slot → g.relationship? id = some rel →
    slot.accepts rel = true → s.current.rels.contains (some id) = false →
    g.seatEnds? p slot rel s.current = some seated →
    Makes g p limit (.tryRel steps position id s)
      (.search steps (Search.setRel { s with current := seated } position (some id)))

/-- The calls of a search from the vacant assignment, and the calls that these make. -/
def Calls (g : Graph) (p : Pattern) (limit : Option Nat) (plan : MatchPlan) :
    SearchCall → Prop :=
  Relation.ReflTransGen (g.Makes p limit) (.search plan.steps ⟨.vacant p, #[]⟩)

/-! ## What holds of each call -/

/-- The steps that are left run from an account that the assignment agrees with; where
a relationship is tried first, from one that it agrees with once that is placed. -/
inductive OnCourse (g : Graph) (p : Pattern) : SearchCall → Prop
  | search {s : Progress} {steps : List MatchStep} {search : Search} :
    g.Runs p s steps → search.current.Consistent g p s → OnCourse g p (.search steps search)
  | tryRel {s s' : Progress} {steps : List MatchStep} {position : Nat} {id : RelId}
      {search : Search} :
    search.current.Consistent g p s → position ∉ s.placed → g.Runs p s' steps →
    (∀ b, g.place? p search.current position id = some b → b.Consistent g p s') →
    OnCourse g p (.tryRel steps position id search)

/-- A call that is on course leaves the assignment as it found it. -/
theorem OnCourse.restores (onCourse : g.OnCourse p call) (limit : Option Nat) :
    (call.finish g p limit).current = call.start.current := by
  cases onCourse with
  | @search s steps search runs consistent =>
    have ran : g.search p limit steps search = _ := runs.collects consistent limit search rfl
    rw [SearchCall.finish, ran]
    rfl
  | @tryRel s s' steps position id search consistent waiting runs later =>
    rw [SearchCall.finish]
    cases placed : g.place? p search.current position id with
    | none =>
      rw [tryRel_of_none placed]
      rfl
    | some b =>
      rw [tryRel_of_some consistent waiting placed (runs.collects (later b placed) limit) rfl]
      rfl

section Steps

variable {s : Progress} {step : MatchStep} {steps : List MatchStep} {search t : Search}

/-- A node that is tried for a slot finds the rest of the assignment as it was, whatever
was tried before it. -/
theorem OnCourse.enters {slot : Nat} {node : NodeId} (unbound : slot ∉ s.bound)
    (runs : g.Runs p { s with bound := slot :: s.bound } steps)
    (consistent : search.current.Consistent g p s) (fits : g.fits p slot node = true)
    (limit : Option Nat) (tried : List NodeId) (visited : t = search.each limit (fun node s =>
      if g.fits p slot node then g.search p limit steps (s.setNode slot (some node)) else s)
      tried) :
    g.OnCourse p (.search steps (t.setNode slot (some node))) := by
  have later : ∀ n b, g.enter? p search.current slot n = some b →
      b.Consistent g p { s with bound := slot :: s.bound } :=
    fun _ _ entered => consistent_of_enter? consistent unbound entered
  have gathered := each_enter consistent.filled unbound tried
    (fun n _ b entered => runs.collects (later n b entered) limit) rfl
  have vacated : t.current.setNode slot none = search.current := by
    rw [visited]
    exact congrArg Search.current gathered
  have here := later node _ (if_pos fits)
  rw [← vacated, Assignment.setNode_setNode] at here
  exact .search runs here

/-- A relationship that is tried for a slot finds the assignment as it was, whatever was
tried before it. -/
theorem OnCourse.tries {position : Nat} {id : RelId} {ids tried rest : List RelId}
    (waiting : position ∉ s.placed) (ready : g.Ready p s step)
    (runs : g.Runs p (s.after p step) steps) (consistent : search.current.Consistent g p s)
    (leads : ∀ id ∈ ids, ∀ b, g.place? p search.current position id = some b →
      b ∈ g.outcomes p search.current step)
    (split : ids = tried ++ id :: rest) (limit : Option Nat)
    (visited : t = search.each limit (g.tryRel p (g.search p limit steps) position) tried) :
    g.OnCourse p (.tryRel steps position id t) := by
  have later : ∀ id ∈ ids, ∀ b, g.place? p search.current position id = some b →
      b.Consistent g p (s.after p step) :=
    fun id mem b placed => (ready.outcome consistent (leads id mem b placed)).1
  subst split
  have gathered := each_tryRel consistent waiting tried
    (fun n mem b placed => runs.collects (later n (List.mem_append_left _ mem) b placed) limit) rfl
  have same : t.current = search.current := by
    rw [visited]
    exact (congrArg Search.current gathered).trans rfl
  have here := later id (List.mem_append_right _ List.mem_cons_self)
  rw [← same] at consistent here
  exact .tryRel consistent waiting runs here

end Steps

/-- A call that is on course makes only calls that are. -/
theorem OnCourse.makes (onCourse : g.OnCourse p call) (makes : g.Makes p limit call call') :
    g.OnCourse p call' := by
  cases onCourse with
  | tryRel _ _ runs later =>
    cases makes with
    | tryRel found live accepted unused ends =>
      exact .search runs (later _ (place?_of_seatEnds? found live accepted unused ends))
  | search runs consistent =>
    cases runs with
    | done _ => cases makes
    | step ready runs =>
      cases makes with
      | boundNode _ fits =>
        cases ready with
        | boundNode _ unbound => exact .enters unbound runs consistent fits limit [] rfl
      | @boundRel _ only _ _ _ =>
        have split : [only] = [] ++ only :: [] := rfl
        have waiting := ready
        cases waiting with
        | boundRel _ _ waiting =>
          refine .tries waiting ready runs consistent (fun id mem b placed => ?_) split limit rfl
          exact List.mem_filterMap.2 ⟨id, mem, placed⟩
      | seed _ visited _ fits =>
        cases ready with
        | seed _ unbound _ _ => exact .enters unbound runs consistent fits limit _ visited
      | expand _ found seated split visited _ =>
        have waiting := ready
        cases waiting with
        | expand _ waiting _ _ =>
          refine .tries waiting ready runs consistent (fun id mem b placed => ?_) split limit
            visited
          rw [outcomes, reached, found, seated]
          exact List.mem_filterMap.2 ⟨id, mem, placed⟩
      | check _ found source target split visited _ =>
        have waiting := ready
        cases waiting with
        | check _ waiting _ _ =>
          refine .tries waiting ready runs consistent (fun id mem b placed => ?_) split limit
            visited
          rw [outcomes, joining, found]
          dsimp only
          rw [source, target]
          exact List.mem_filterMap.2 ⟨id, mem, placed⟩

/-- Every call that the search of a plan makes is on course. -/
theorem Runs.onCourse {plan : MatchPlan} (runs : g.Runs p .start plan.steps)
    (calls : g.Calls p limit plan call) : g.OnCourse p call := by
  induction calls with
  | refl => exact .search runs (Assignment.vacant_consistent g p)
  | tail _ makes ih => exact ih.makes makes

/-! ## The first matches -/

/-- With a limit the search finds the first of what it finds without. -/
theorem Runs.runMatch_some {plan : MatchPlan} (runs : g.Runs p .start plan.steps) (k : Nat) :
    g.runMatch p plan (some k) = (g.runMatch p plan none).take k := by
  rw [runMatch_none runs, runMatch,
    runs.collects (Assignment.vacant_consistent g p) (some k) ⟨.vacant p, #[]⟩ rfl]
  exact Search.collect_some k _ _

/-- A pattern has a match just if not none are found. -/
theorem Coherent.hasMatch_eq (coherent : g.Coherent) (wellFormed : p.WellFormed)
    (row : BindingRow) :
    g.hasMatch p row = (g.findAll p row).map fun rows => !rows.isEmpty := by
  rw [hasMatch, findAll]
  cases planned : g.planMatch p row with
  | error e => rfl
  | ok plan =>
    have runs := coherent.runs_of_planMatch wellFormed planned
    show Except.ok (!(g.runMatch p plan (some 1)).isEmpty) =
      .ok !((g.runMatch p plan none).map (p.bindRow row)).isEmpty
    rw [runs.runMatch_some]
    cases g.runMatch p plan none <;> rfl

/-- In a reachable graph, the search of a plan for a pattern of paths and a row finds
with a limit the first of what it finds without. So a match exists just if not none are
found, and asking for one fails as asking for all does. Every call that the search makes
leaves the assignment as it found it, whatever came of the call. -/
theorem bounded_search_exact (reachable : g.Reachable) {paths : List Path}
    (compiled : Pattern.ofPaths paths = .ok p) (row : BindingRow) :
    (∀ plan, g.planMatch p row = .ok plan → ∀ k,
      g.runMatch p plan (some k) = (g.runMatch p plan none).take k) ∧
    (g.hasMatch p row = .ok true ↔ ∃ rows, g.findAll p row = .ok rows ∧ rows ≠ []) ∧
    (g.hasMatch p row = .ok false ↔ g.findAll p row = .ok []) ∧
    (∀ e, g.hasMatch p row = .error e ↔ g.findAll p row = .error e) ∧
    ∀ plan, g.planMatch p row = .ok plan → ∀ limit call, g.Calls p limit plan call →
      (call.finish g p limit).current = call.start.current := by
  have coherent := reachable.coherent
  have wellFormed := Pattern.wellFormed_of_ofPaths compiled
  have asked := coherent.hasMatch_eq wellFormed row
  refine ⟨fun plan planned k => ?_, ?_, ?_, fun e => ?_, fun plan planned limit call calls => ?_⟩
  · exact (coherent.runs_of_planMatch wellFormed planned).runMatch_some k
  · rw [asked, map_eq_ok_iff]
    simp
  · rw [asked, map_eq_ok_iff]
    simp
  · rw [asked, map_eq_error_iff]
  · exact ((coherent.runs_of_planMatch wellFormed planned).onCourse calls).restores limit

/-- Of two loops at one node a search for one match tries the first, and it puts
everything back although it stops there. -/
theorem bounded_search_exact_on_two_loops :
    let g := (Graph.empty .standard).afterAll [.createNode [] [],
      .createRelationship "knows" ⟨1⟩ ⟨1⟩ [], .createRelationship "knows" ⟨1⟩ ⟨1⟩ []]
    let path : Path := ⟨[⟨some "a", none, []⟩, ⟨some "a", none, []⟩],
      [⟨none, "knows", .outgoing, []⟩]⟩
    let p : Pattern := ⟨[⟨some "a", [], []⟩], [⟨none, "knows", 0, 0, []⟩], [.node 0, .rel 0]⟩
    let plan : MatchPlan := ⟨[.seed 0 (.everyNode []) [⟨1⟩], .check 0]⟩
    let seated : Assignment := ⟨[some ⟨1⟩], [none]⟩
    let call : SearchCall := .tryRel [] 0 ⟨1⟩ ⟨seated, #[]⟩
    g.Reachable ∧ Pattern.ofPaths [path] = .ok p ∧ g.planMatch p .empty = .ok plan ∧
      (g.runMatch p plan none).length = 2 ∧
      g.runMatch p plan (some 1) = (g.runMatch p plan none).take 1 ∧
      g.hasMatch p .empty = .ok true ∧ g.Calls p (some 1) plan call ∧
      (call.finish g p (some 1)).current = seated := by
  intro g path p plan seated call
  have reachable : g.Reachable := (Reachable.empty _).afterAll _
  have compiled : Pattern.ofPaths [path] = .ok p := rfl
  have planned : g.planMatch p .empty = .ok plan := rfl
  have seeds : g.Makes p (some 1)
      (.search (.seed 0 (.everyNode []) ([] ++ ⟨1⟩ :: []) :: [.check 0]) ⟨.vacant p, #[]⟩)
      (.search [.check 0] ⟨seated, #[]⟩) := .seed rfl rfl rfl rfl
  have loops : g.edgesBetween ⟨1⟩ ⟨1⟩ (some "knows") = [] ++ ⟨1⟩ :: [⟨2⟩] := rfl
  have checks : g.Makes p (some 1) (.search [.check 0] ⟨seated, #[]⟩) call :=
    .check rfl rfl rfl rfl loops rfl rfl
  have called : g.Calls p (some 1) plan call := .tail (.single seeds) checks
  obtain ⟨first, found, -, -, restored⟩ := bounded_search_exact reachable compiled .empty
  exact ⟨reachable, compiled, planned, rfl, first plan planned 1, rfl, called,
    restored plan planned (some 1) call called⟩

end Graph

end PropertyGraph
