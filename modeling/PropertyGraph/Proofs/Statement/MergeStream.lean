import PropertyGraph.Proofs.Action
import PropertyGraph.Statement.MergeStream

/-!
# Draining a merge stream

Draining a stream is two loops, one inside the other: merge from each row in
turn, and apply the updates to each result of a merge before the next row is
merged. The rows it hands out are the results of the merges, one block for each
row that was merged from. A stream that has given an error is at its end, whatever
becomes of the execution.
-/

namespace PropertyGraph

namespace MergeStream

variable {p : Pattern} {updates : List Update} {inputs : List BindingRow}
  {s s' : MergeStream} {x x' : Execution}

/-! ## One pull after another -/

/-- Draining a stream, as a step of a statement. -/
abbrev draining (updates : List Update) (s : MergeStream) :
    Execution.Action (List BindingRow) := s.drain updates

theorem drain_of_none (pulled : s.pull x = ((none, s'), x')) :
    s.drain updates x = (.ok [], x') := by
  rw [drain]
  split
  · rename_i other
    cases other.symm.trans pulled
    rfl
  · rename_i other
    cases other.symm.trans pulled
  · rename_i other
    cases other.symm.trans pulled

theorem drain_of_error {e : ExecutionError} (pulled : s.pull x = ((some (.error e), s'), x')) :
    s.drain updates x = (.error e, x') := by
  rw [drain]
  split
  · rename_i other
    cases other.symm.trans pulled
  · rename_i other
    cases other.symm.trans pulled
    rfl
  · rename_i other
    cases other.symm.trans pulled

/-- A row that is pulled is updated before the rest of the stream is drained. -/
theorem drain_of_row {row : BindingRow} (pulled : s.pull x = ((some (.ok row), s'), x')) :
    s.drain updates x = (do
      Execution.apply row updates
      let rows ← draining updates s'
      return row :: rows : Execution.Action (List BindingRow)) x' := by
  rw [drain]
  split
  · rename_i other
    cases other.symm.trans pulled
  · rename_i other
    cases other.symm.trans pulled
  · rename_i other
    cases other.symm.trans pulled
    rcases applied : Execution.apply row updates x' with ⟨e | ⟨⟩, x₁⟩
    · rw [RefusableAction.bind_of_error applied]
    · rw [RefusableAction.bind_of_ok applied]
      dsimp only
      rcases drained : s'.drain updates x₁ with ⟨e | rows, x₂⟩
      · rw [RefusableAction.bind_of_error (x := draining updates s') drained]
      · rw [RefusableAction.bind_of_ok (x := draining updates s') drained]
        rfl

/-- What is drained depends on what is pulled first. -/
theorem drain_congr (same : s.pull x = s'.pull x') : s.drain updates x = s'.drain updates x' := by
  rcases pulled : s'.pull x' with ⟨⟨_ | e | row, rest⟩, x₁⟩
  · rw [drain_of_none pulled, drain_of_none (same.trans pulled)]
  · rw [drain_of_error pulled, drain_of_error (same.trans pulled)]
  · rw [drain_of_row pulled, drain_of_row (same.trans pulled)]

/-! ## Two loops -/

/-- Merge from one row and apply the updates to each result. -/
def mergeRow (p : Pattern) (updates : List Update) (row : BindingRow) :
    Execution.Action (List BindingRow) := do
  let rows ← Execution.merge p row
  rows.forM fun row => Execution.apply row updates
  return rows

/-- Merge from each row in turn; the results in one block for each row. -/
def mergeEach (p : Pattern) (updates : List Update) (inputs : List BindingRow) :
    Execution.Action (List (List BindingRow)) := inputs.mapM (mergeRow p updates)

/-- The results that are waiting are handed out, each updated, before the next
row is merged. -/
theorem drain_pending (p : Pattern) (updates : List Update) (inputs pending : List BindingRow)
    (x : Execution) :
    drain updates ⟨p, inputs, pending, false⟩ x = (do
      pending.forM fun row => Execution.apply row updates
      let rows ← draining updates ⟨p, inputs, [], false⟩
      return pending ++ rows : Execution.Action (List BindingRow)) x := by
  induction pending generalizing x with
  | nil => simp
  | cons row rest ih =>
    have pulled : (⟨p, inputs, row :: rest, false⟩ : MergeStream).pull x =
        ((some (.ok row), ⟨p, inputs, rest, false⟩), x) := rfl
    rw [drain_of_row pulled]
    have later : draining updates ⟨p, inputs, rest, false⟩ = do
        rest.forM fun row => Execution.apply row updates
        let rows ← draining updates ⟨p, inputs, [], false⟩
        return rest ++ rows := funext ih
    rw [later]
    simp [List.forM_cons, bind_assoc]

/-- A row merged is a block of results waiting. -/
theorem pull_of_merge {row : BindingRow} {results : List BindingRow}
    (merged : Execution.merge p row x = (.ok results, x')) :
    (⟨p, row :: inputs, [], false⟩ : MergeStream).pull x =
      (⟨p, inputs, results, false⟩ : MergeStream).pull x' := by
  show advance p (row :: inputs) x = _
  rw [advance, merged]
  cases results with
  | nil => rfl
  | cons first rest => rfl

/-- Pulling rows to the end, updating each, is merging from one input after the other. -/
theorem drain_eq (p : Pattern) (updates : List Update) (inputs : List BindingRow)
    (x : Execution) :
    (start p inputs).drain updates x =
      (do
        return (← mergeEach p updates inputs).flatten : Execution.Action (List BindingRow)) x := by
  induction inputs generalizing x with
  | nil => exact drain_of_none rfl
  | cons row rest ih =>
    have split : (mergeEach p updates (row :: rest) : Execution.Action _) = do
        let rows ← Execution.merge p row
        rows.forM fun row => Execution.apply row updates
        let blocks ← mergeEach p updates rest
        return rows :: blocks := by
      simp [mergeEach, mergeRow, List.mapM_cons, bind_assoc]
    rw [split, bind_assoc]
    rcases merged : Execution.merge p row x with ⟨e | results, x'⟩
    · rw [RefusableAction.bind_of_error merged]
      have pulled : (start p (row :: rest)).pull x =
          ((some (.error e), ⟨p, rest, [], true⟩), x') := by
        show advance p (row :: rest) x = _
        rw [advance, merged]
      exact drain_of_error pulled
    · have later : draining updates ⟨p, rest, [], false⟩ =
          do return (← mergeEach p updates rest).flatten := funext ih
      rw [RefusableAction.bind_of_ok merged, start, drain_congr (pull_of_merge merged),
        drain_pending, later]
      simp

theorem draining_eq (p : Pattern) (updates : List Update) (inputs : List BindingRow) :
    draining updates (start p inputs) = do
      return (← mergeEach p updates inputs).flatten :=
  funext (drain_eq p updates inputs)

/-- Without updates there is nothing to do between two merges. -/
theorem mergeEach_nil (p : Pattern) (inputs : List BindingRow) :
    mergeEach p [] inputs = inputs.mapM (Execution.merge p) := by
  have idle : ∀ rows : List BindingRow,
      (rows.forM fun row => Execution.apply row [] : Execution.Action PUnit) = pure () := by
    intro rows
    induction rows with
    | nil => rfl
    | cons row rest ih =>
      show (do Execution.apply row []; rest.forM fun row => Execution.apply row []) = _
      rw [ih]
      rfl
  have same : mergeRow p [] = Execution.merge p := by
    funext row
    simp [mergeRow, idle]
  rw [mergeEach, same]

/-! ## The nested loop -/

/-- Merge from each row in turn, and update and emit each result of a merge before
the next row is merged. The first error, of a merge or of an update, ends it. -/
def nestedLoop (p : Pattern) (updates : List Update) (inputs : List BindingRow) :
    Execution.Action (List BindingRow) := do
  let mut emitted := []
  for input in inputs do
    for row in ← Execution.merge p input do
      Execution.apply row updates
      emitted := emitted ++ [row]
  return emitted

/-- The inner loop updates the results of a merge in turn and emits them all. -/
theorem forIn_results (updates : List Update) (emitted rows : List BindingRow) :
    (forIn rows emitted fun row emitted => do
      Execution.apply row updates
      return .yield (emitted ++ [row]) : Execution.Action (List BindingRow)) = do
    rows.forM fun row => Execution.apply row updates
    return emitted ++ rows := by
  induction rows generalizing emitted with
  | nil => simp
  | cons row rest ih =>
    rw [List.forIn_cons]
    simp only [bind_assoc, pure_bind, ih, List.forM_eq_forM, List.forM_cons, List.append_assoc,
      List.singleton_append]

/-- The outer loop emits one block for each row. -/
theorem forIn_inputs (p : Pattern) (updates : List Update) (emitted inputs : List BindingRow) :
    (forIn inputs emitted fun input emitted => do
      let rows ← Execution.merge p input
      let emitted ← forIn rows emitted fun row emitted => do
        Execution.apply row updates
        return .yield (emitted ++ [row])
      return .yield emitted : Execution.Action (List BindingRow)) = do
    return emitted ++ (← mergeEach p updates inputs).flatten := by
  simp only [forIn_results, bind_assoc, pure_bind]
  induction inputs generalizing emitted with
  | nil => simp [mergeEach]
  | cons input rest ih =>
    simp only [List.forIn_cons, bind_assoc, pure_bind, ih, mergeEach, mergeRow, List.mapM_cons,
      List.flatten_cons, List.append_assoc]

theorem nestedLoop_eq (p : Pattern) (updates : List Update) (inputs : List BindingRow) :
    nestedLoop p updates inputs = do return (← mergeEach p updates inputs).flatten := by
  have looped := forIn_inputs p updates [] inputs
  simp only [List.nil_append] at looped
  rw [← looped]
  exact bind_pure _

theorem draining_eq_nestedLoop (p : Pattern) (updates : List Update) (inputs : List BindingRow) :
    draining updates (start p inputs) = nestedLoop p updates inputs :=
  (draining_eq p updates inputs).trans (nestedLoop_eq p updates inputs).symm

/-- A row is merged where draining the rows before it has ended, all their results
updated, and the rows after it are drained when all its results are. -/
theorem draining_append_cons (p : Pattern) (updates : List Update) (earlier : List BindingRow)
    (input : BindingRow) (later : List BindingRow) :
    draining updates (start p (earlier ++ input :: later)) = do
      let before ← draining updates (start p earlier)
      let rows ← Execution.merge p input
      rows.forM fun row => Execution.apply row updates
      let after ← draining updates (start p later)
      return before ++ (rows ++ after) := by
  simp only [draining_eq, mergeEach, List.mapM_append, List.mapM_cons, mergeRow, bind_assoc,
    pure_bind, List.flatten_append, List.flatten_cons]

/-! ## The end of a stream -/

/-- A stream that gives an error keeps nothing to hand out and merges nothing more. -/
theorem advance_of_error {e : ExecutionError}
    (failed : advance p inputs x = ((some (.error e), s'), x')) :
    s'.pending = [] ∧ s'.failed = true := by
  induction inputs generalizing x with
  | nil => cases failed
  | cons input rest ih =>
    unfold advance at failed
    split at failed
    · cases failed
      exact ⟨rfl, rfl⟩
    · exact ih failed
    · cases failed

/-- After an error every further pull, wherever the execution has got to by then,
finds the end of the stream and does nothing. -/
theorem pull_after_error {e : ExecutionError} (failed : s.pull x = ((some (.error e), s'), x'))
    (y : Execution) : s'.pull y = ((none, s'), y) := by
  have ended : s'.pending = [] ∧ s'.failed = true := by
    unfold pull at failed
    split at failed
    · cases failed
    · split at failed
      · cases failed
      · exact advance_of_error failed
  rw [pull, ended.1, ended.2]
  rfl

end MergeStream

end PropertyGraph
