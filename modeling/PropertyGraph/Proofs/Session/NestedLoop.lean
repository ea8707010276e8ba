import PropertyGraph.Proofs.Session.Requests

/-!
# Merging as a nested loop

A merge statement pulls the rows of a lazy stream and updates each before it pulls
the next. What comes of it is what two nested loops give: the outer one over the
rows to merge from, the inner one over the results of each merge.
-/

namespace PropertyGraph

namespace Session

/-- A merge statement gives the result, the statistics and the graph of the nested
loop, from any session and also when it fails, and draining its stream leaves the
execution that the loop leaves. So a row is merged when all results of the rows
before it have been updated; and once a stream has given an error, pulling it again
gives nothing and merges nothing, whatever was done to the execution meanwhile. -/
theorem mergeWith_eq_nestedLoop (path : Path) (inputs : List BindingRow)
    (updates : List Update) :
    (∀ s : Session, mergeWith path inputs updates s = (do
      let p ← define [path]
      execute (MergeStream.nestedLoop p updates inputs) : Action StatementResult) s) ∧
    (∀ p x, (MergeStream.start p inputs).drain updates x =
      MergeStream.nestedLoop p updates inputs x) ∧
    (∀ p earlier input later, inputs = earlier ++ input :: later →
      MergeStream.draining updates (.start p inputs) = do
        let before ← MergeStream.draining updates (.start p earlier)
        let rows ← Execution.merge p input
        rows.forM fun row => Execution.apply row updates
        let after ← MergeStream.draining updates (.start p later)
        return before ++ (rows ++ after)) ∧
    ∀ (stream ended : MergeStream) (x x' : Execution) (e : ExecutionError),
      stream.pull x = ((some (.error e), ended), x') → ∀ y, ended.pull y = ((none, ended), y) := by
  have loop := fun p => MergeStream.draining_eq_nestedLoop p updates inputs
  refine ⟨fun s => ?_, fun p x => congrFun (loop p) x, ?_, fun _ _ _ _ _ failed y =>
    MergeStream.pull_after_error failed y⟩
  · simp only [mergeWith, ← loop]
  · rintro p earlier input later rfl
    exact MergeStream.draining_append_cons p updates earlier input later

/-- An update undoes what the merge matched on, so the second row creates again; and a
stream that failed is over. -/
theorem mergeWith_eq_nestedLoop_over_changing_node :
    let s := start .standard
    let path : Path := ⟨[⟨some "n", none, [("v", .int 1)]⟩], []⟩
    let p : Pattern := ⟨[⟨some "n", [], [("v", .int 1)]⟩], [], [.node 0]⟩
    let inputs : List BindingRow := [.empty, .empty]
    let updates : List Update := [⟨"n", .setProperty "v" (.int 2)⟩]
    let bound : BindingRow := ⟨[("n", .node ⟨1⟩)]⟩
    let merged := mergeWith path inputs updates s
    let x := Execution.start merged.2.graph
    let failing := (MergeStream.start p [bound, .empty]).pull x
    merged.1 = .ok ⟨[bound, ⟨[("n", .node ⟨2⟩)]⟩], { nodesCreated := 2, propertiesSet := 4 }⟩ ∧
      failing.1.1 = some (.error (.boundConstraintViolation "n")) ∧
      ∀ y, failing.1.2.pull y = ((none, failing.1.2), y) := by
  intro s path p inputs updates bound merged x failing
  obtain ⟨nested, -, -, ended⟩ := mergeWith_eq_nestedLoop path inputs updates
  have ran : merged.1 = .ok ⟨[bound, ⟨[("n", .node ⟨2⟩)]⟩],
      { nodesCreated := 2, propertiesSet := 4 }⟩ := by
    rw [show merged = _ from nested s]
    decide +kernel
  have failed : failing.1.1 = some (.error (.boundConstraintViolation "n")) := by
    dsimp only [failing, x]
    rw [show merged = _ from nested s]
    decide +kernel
  exact ⟨ran, failed, ended _ _ x _ _ (Prod.ext (Prod.ext failed rfl) rfl)⟩

end Session

end PropertyGraph
