import PropertyGraph.Proofs.Session.Requests
import PropertyGraph.Proofs.Statement.Instance
import PropertyGraph.Proofs.Statement.Tally

/-!
# What each row of a merge contributes

A merge statement takes its rows in turn. A row with matches contributes a row for
each of them and creates nothing; any other row contributes one row and the new
entities of one instance. All rows are updated, and each update that writes a
property counts once for each row. So the counters of the statement are sums over
its turns, although what a turn finds depends on all that the turns before it
created, wrote and deleted.
-/

namespace PropertyGraph

namespace Execution

variable {p : Pattern} {updates : List Update} {x x' : Execution}

/-! ## Turns -/

/-- The turn of one row: the row that is merged from, the matches found and the
rows contributed. -/
structure Turn where
  input : BindingRow
  found : List Match
  rows : List BindingRow

/-- No match was found, so the pattern is created. -/
def Turn.creates (turn : Turn) : Bool := turn.found.isEmpty

/-- The turn leads from one execution to another. The matches found are those there
are where it begins, each of them once. -/
structure Turn.Runs (p : Pattern) (updates : List Update) (turn : Turn) (x x' : Execution) :
    Prop where
  distinct : turn.found.Nodup
  exact : ∀ m, m ∈ turn.found ↔ m.Holds x.graph p turn.input
  /-- With matches the merge changes nothing and answers a row for each. -/
  matched : turn.creates = false →
    turn.rows = turn.found.map (fun m => p.bindRow turn.input m.assignment) ∧
      merge p turn.input x = (.ok turn.rows, x)
  /-- Without a match the merge adds one instance and answers its row. -/
  created : turn.creates = true → ∃ m row x₁, turn.rows = [row] ∧
    merge p turn.input x = (.ok [row], x₁) ∧ Instantiates p turn.input x.graph x₁.graph m row
  updated : ∃ x₁, merge p turn.input x = (.ok turn.rows, x₁) ∧
    (turn.rows.forM fun row => apply row updates : Action PUnit) x₁ = (.ok ⟨⟩, x')
  nodesCreated : x'.stats.nodesCreated =
    x.stats.nodesCreated + if turn.creates then (p.openNodes turn.input).length else 0
  relationshipsCreated : x'.stats.relationshipsCreated =
    x.stats.relationshipsCreated + if turn.creates then p.rels.length else 0
  propertiesSet : x'.stats.propertiesSet = x.stats.propertiesSet +
    (turn.rows.length * writes updates +
      if turn.creates then (p.newLiterals turn.input).length else 0)

/-- A turn contributes as many rows as it found matches, but one if it found none. -/
theorem Turn.Runs.length_rows {turn : Turn} (runs : turn.Runs p updates x x') :
    turn.rows.length = if turn.creates then 1 else turn.found.length := by
  cases way : turn.creates with
  | true =>
    obtain ⟨_, row, _, rows, _⟩ := runs.created way
    rw [rows]
    rfl
  | false =>
    rw [(runs.matched way).1, List.length_map]
    rfl

/-- A row that is merged and whose results are updated has its turn. -/
theorem runs_of_mergeRow (reachable : x.graph.Reachable) (wellFormed : p.WellFormed)
    (tidy : p.Tidy) {input : BindingRow} {rows : List BindingRow}
    (ran : MergeStream.mergeRow p updates input x = (.ok rows, x')) :
    ∃ found, Turn.Runs p updates ⟨input, found, rows⟩ x x' := by
  obtain ⟨_, x₁, merged, ran⟩ := RefusableAction.of_bind_eq_ok ran
  obtain ⟨⟨⟩, _, updated, ran⟩ := RefusableAction.of_bind_eq_ok ran
  cases ran
  have wrote := tallies_applyEach rows updates x₁ _ x' updated
  cases answered : x.graph.findAll p input with
  | error e =>
    rw [merge_of_error answered] at merged
    cases merged
  | ok results =>
    obtain ⟨found, distinct, exact_, rfl⟩ := reachable.coherent.of_findAll wellFormed answered
    cases found with
    | nil =>
      obtain ⟨result, rfl, created⟩ := create_of_merge answered merged
      obtain ⟨m, _, instantiates⟩ :=
        instantiates_of_create reachable.coherent.stored wellFormed tidy created
      rw [tally_create tidy created] at wrote
      simp only [tally, Prod.mk_add_mk, Prod.mk.injEq] at wrote
      refine ⟨[], distinct, exact_, (fun idle => by cases idle),
        fun _ => ⟨m, result, x₁, rfl, merged, instantiates⟩, ⟨x₁, merged, updated⟩, wrote.1,
        wrote.2.1, ?_⟩
      rw [wrote.2.2, Nat.add_assoc, Nat.add_comm (p.newLiterals input).length]
      rfl
    | cons m rest =>
      rw [List.map_cons] at answered
      rw [merge_of_cons answered] at merged
      cases merged
      simp only [tally, Prod.mk_add_mk, Prod.mk.injEq] at wrote
      exact ⟨m :: rest, distinct, exact_, fun _ => ⟨rfl, merge_of_cons answered⟩,
        (fun creates => by cases creates), ⟨x, merge_of_cons answered, updated⟩, wrote.1, wrote.2.1,
        wrote.2.2⟩

/-- Turns taken one after the other. -/
inductive Turns (p : Pattern) (updates : List Update) : Execution → List Turn → Execution → Prop
  | done (x : Execution) : Turns p updates x [] x
  | next {x x₁ x' : Execution} {turn : Turn} {rest : List Turn} :
    turn.Runs p updates x x₁ → Turns p updates x₁ rest x' → Turns p updates x (turn :: rest) x'

/-- Rows that are merged one after the other have their turns in that order. -/
theorem turns_of_mergeEach (reachable : x.graph.Reachable) (wellFormed : p.WellFormed)
    (tidy : p.Tidy) {inputs : List BindingRow} {blocks : List (List BindingRow)}
    (ran : MergeStream.mergeEach p updates inputs x = (.ok blocks, x')) :
    ∃ turns, turns.map Turn.input = inputs ∧ turns.map Turn.rows = blocks ∧
      Turns p updates x turns x' := by
  induction inputs generalizing x blocks with
  | nil =>
    cases ran
    exact ⟨[], rfl, rfl, .done _⟩
  | cons input inputs ih =>
    rw [MergeStream.mergeEach, List.mapM_cons] at ran
    obtain ⟨rows, x₁, here, ran⟩ := RefusableAction.of_bind_eq_ok ran
    obtain ⟨blocks, _, later, ran⟩ := RefusableAction.of_bind_eq_ok ran
    cases ran
    have walked := Session.operating_mergeRow p updates input x
    rw [here] at walked
    obtain ⟨found, runs⟩ := runs_of_mergeRow reachable wellFormed tidy here
    obtain ⟨turns, rfl, rfl, taken⟩ := ih (graph_reachable_of_operates reachable walked) later
    exact ⟨⟨input, found, rows⟩ :: turns, rfl, rfl, .next runs taken⟩

/-! ## Sums over turns -/

theorem Turns.length_rows {turns : List Turn} (taken : Turns p updates x turns x') :
    (turns.flatMap Turn.rows).length =
      (turns.map fun turn => if turn.creates then 1 else turn.found.length).sum := by
  induction taken with
  | done x => rfl
  | next runs _ ih =>
    rw [List.flatMap_cons, List.length_append, List.map_cons, List.sum_cons, runs.length_rows, ih]

theorem Turns.nodesCreated {turns : List Turn} (taken : Turns p updates x turns x') :
    x'.stats.nodesCreated = x.stats.nodesCreated +
      ((turns.filter Turn.creates).map fun turn => (p.openNodes turn.input).length).sum := by
  induction taken with
  | done x => rfl
  | @next x x₁ x' turn rest runs _ ih =>
    rw [ih, runs.nodesCreated, List.filter_cons]
    cases turn.creates <;> simp [Nat.add_assoc]

theorem Turns.relationshipsCreated {turns : List Turn} (taken : Turns p updates x turns x') :
    x'.stats.relationshipsCreated = x.stats.relationshipsCreated +
      (turns.filter Turn.creates).length * p.rels.length := by
  induction taken with
  | done x => simp
  | @next x x₁ x' turn rest runs _ ih =>
    rw [ih, runs.relationshipsCreated, List.filter_cons]
    cases turn.creates <;> simp [Nat.succ_mul, Nat.add_assoc, Nat.add_comm]

theorem Turns.propertiesSet {turns : List Turn} (taken : Turns p updates x turns x') :
    x'.stats.propertiesSet = x.stats.propertiesSet +
      ((turns.flatMap Turn.rows).length * writes updates +
        ((turns.filter Turn.creates).map fun turn => (p.newLiterals turn.input).length).sum) := by
  induction taken with
  | done x => simp
  | @next x x₁ x' turn rest runs _ ih =>
    rw [ih, runs.propertiesSet, List.filter_cons, List.flatMap_cons, List.length_append,
      Nat.add_mul]
    cases turn.creates with
    | false =>
      simp only [Bool.false_eq_true, if_false]
      omega
    | true =>
      simp only [if_true, List.map_cons, List.sum_cons]
      omega

end Execution

/-! ## Statements -/

namespace Session

/-- A match that was updated has written each of its rows as often as there are
updates that write. -/
theorem propertiesSet_of_matchUpdate {path : Path} {updates : List Update} {s s' : Session}
    {result : StatementResult} (updated : matchUpdate path updates s = (.ok result, s')) :
    result.stats.propertiesSet = result.rows.length * writes updates := by
  cases compiled : Pattern.ofPaths [path] with
  | error e =>
    rw [matchUpdate_of_error compiled] at updated
    cases updated
  | ok p =>
    cases found : s.graph.findAll p .empty with
    | error e =>
      rw [matchUpdate_of_unmatched compiled found] at updated
      cases updated
    | ok rows =>
      rw [matchUpdate_of_ok compiled found] at updated
      rcases ran : (rows.forM fun row => Execution.apply row updates : Execution.Action PUnit)
        (.start s.graph) with ⟨e | ⟨⟨⟩⟩, x⟩
      · rw [execute, RefusableAction.bind_of_error ran] at updated
        cases updated
      · have wrote := Execution.tallies_applyEach rows updates _ _ _ ran
        rw [execute, RefusableAction.bind_of_ok ran] at updated
        cases updated
        simp only [Execution.tally, Prod.mk_add_mk, Prod.mk.injEq] at wrote
        exact wrote.2.2.trans (Nat.zero_add _)

/-- A merge statement that succeeds in a reachable session has taken its rows in
turn. A turn that found matches contributed a row for each and created nothing, any
other one row and the entities of one instance, and the counters are the sums. A
match that is updated counts a write for each row and each update that writes. -/
theorem counters_sum_over_turns {s : Session} (reachable : s.Reachable) (path : Path)
    (updates : List Update) :
    (∀ inputs result s', mergeWith path inputs updates s = (.ok result, s') →
      ∃ p turns x, Pattern.ofPaths [path] = .ok p ∧
        Execution.Turns p updates (.start s.graph) turns x ∧
        s' = ⟨x.graph⟩ ∧ result.stats = x.stats ∧
        turns.map Execution.Turn.input = inputs ∧
        result.rows = turns.flatMap Execution.Turn.rows ∧
        result.rows.length =
          (turns.map fun turn => if turn.creates then 1 else turn.found.length).sum ∧
        result.stats.nodesCreated = ((turns.filter Execution.Turn.creates).map fun turn =>
          (p.openNodes turn.input).length).sum ∧
        result.stats.relationshipsCreated =
          (turns.filter Execution.Turn.creates).length * p.rels.length ∧
        result.stats.propertiesSet = result.rows.length * writes updates +
          ((turns.filter Execution.Turn.creates).map fun turn =>
            (p.newLiterals turn.input).length).sum) ∧
      ∀ result s', matchUpdate path updates s = (.ok result, s') →
        result.stats.propertiesSet = result.rows.length * writes updates := by
  refine ⟨fun inputs result s' merged => ?_, fun _ _ => propertiesSet_of_matchUpdate⟩
  obtain ⟨p, blocks, x, compiled, ran, rfl, rfl⟩ := blocks_of_mergeWith merged
  obtain ⟨turns, rfl, rfl, taken⟩ := Execution.turns_of_mergeEach (x := .start s.graph)
    reachable.graph (Pattern.wellFormed_of_ofPaths compiled) (Pattern.tidy_of_ofPaths compiled) ran
  have rows : (turns.map Execution.Turn.rows).flatten = turns.flatMap Execution.Turn.rows :=
    List.flatMap_def.symm
  refine ⟨p, turns, x, compiled, taken, rfl, rfl, rfl, rows, ?_, ?_, ?_, ?_⟩
  · rw [rows]
    exact taken.length_rows
  · exact taken.nodesCreated.trans (Nat.zero_add _)
  · exact taken.relationshipsCreated.trans (Nat.zero_add _)
  · rw [rows]
    exact taken.propertiesSet.trans (Nat.zero_add _)

/-- The first of two equal rows creates and the second finds, and both count the
properties they write. -/
theorem counters_sum_over_turns_created_then_found :
    let s := start .standard
    let path : Path := ⟨[⟨some "p", some "Person", [("age", .int 3)]⟩, ⟨none, none, []⟩],
      [⟨some "r", "owns", .outgoing, []⟩]⟩
    let inputs : List BindingRow := [.empty, .empty]
    let updates : List Update := [⟨"r", .setProperty "since" (.int 1)⟩, ⟨"p", .addLabel "Owner"⟩]
    let row : BindingRow := ⟨[("p", .node ⟨1⟩), ("r", .relationship ⟨1⟩)]⟩
    let merged := mergeWith path inputs updates s
    let result : StatementResult := ⟨[row, row],
      { labelsAdded := 2, nodesCreated := 2, relationshipsCreated := 1, propertiesSet := 3 }⟩
    let updated := matchUpdate path updates merged.2
    let result' : StatementResult := ⟨[row], { propertiesSet := 1 }⟩
    s.Reachable ∧ merged.1 = .ok result ∧
      (∃ (p : Pattern) (turns : List Execution.Turn), Pattern.ofPaths [path] = .ok p ∧
        turns.map Execution.Turn.input = inputs ∧
        result.rows = turns.flatMap Execution.Turn.rows ∧
        result.stats.propertiesSet = result.rows.length * writes updates +
          ((turns.filter Execution.Turn.creates).map fun turn =>
            (p.newLiterals turn.input).length).sum) ∧
      updated.1 = .ok result' ∧
      result'.stats.propertiesSet = result'.rows.length * writes updates := by
  intro s path inputs updates row merged result updated result'
  have reachable : s.Reachable := .start .standard
  have joined : Pattern.ofPaths [path] = .ok ⟨[⟨some "p", ["Person"], [("age", .int 3)]⟩,
      ⟨none, [], []⟩], [⟨some "r", "owns", 0, 1, []⟩], [.node 0, .rel 0, .node 1]⟩ := rfl
  have ran : merged.1 = .ok result := by
    rw [show merged = _ from mergeWith_of_ok joined]
    decide +kernel
  have ran' : updated.1 = .ok result' := by
    dsimp only [updated]
    rw [show merged = _ from mergeWith_of_ok joined]
    decide +kernel
  obtain ⟨merges, -⟩ := counters_sum_over_turns reachable path updates
  have answered : merged = (.ok result, merged.2) := by
    rw [← ran]
    exact Prod.mk.eta.symm
  obtain ⟨p, turns, x, compiled, _, _, _, given, rows, _, _, _, counted⟩ :=
    merges inputs result merged.2 answered
  have later : merged.2.Reachable := by
    have kept := reachable.after (.run (.mergeWith path inputs updates))
    rw [after, run] at kept
    exact kept
  have answered' : updated = (.ok result', updated.2) := by
    rw [← ran']
    exact Prod.mk.eta.symm
  have counted' := (counters_sum_over_turns later path updates).2 result' updated.2 answered'
  exact ⟨reachable, ran, ⟨p, turns, compiled, given, rows, counted⟩, ran', counted'⟩

end Session

end PropertyGraph
