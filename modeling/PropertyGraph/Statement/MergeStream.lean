import PropertyGraph.Statement.Execution

/-!
# Merging row by row

A merge stream merges one pattern from each of a list of rows, and hands out
the rows that result one at a time. A row of the list is merged only when all
results of the rows before it were handed out, so what the execution does
between two pulls is there for later merges to find. After the first error the
stream is at its end.
-/

namespace PropertyGraph

/-- A pattern, the rows still to be merged, the results still to be handed out,
and whether a merge failed. -/
structure MergeStream where
  pattern : Pattern
  inputs : List BindingRow
  pending : List BindingRow
  failed : Bool

namespace MergeStream

/-- The stream that merges a pattern from each of the rows. -/
def start (pattern : Pattern) (inputs : List BindingRow) : MergeStream :=
  ⟨pattern, inputs, [], false⟩

/-- What pulling a stream gives: a row or an error, or nothing at its end. -/
abbrev Pull := Option (Except ExecutionError BindingRow)

/-- Merge from the rows of a list until one has results. -/
def advance (pattern : Pattern) : List BindingRow → Execution → (Pull × MergeStream) × Execution
  | [], x => ((none, ⟨pattern, [], [], false⟩), x)
  | row :: inputs, x => match Execution.merge pattern row x with
    | (.error e, x) => ((some (.error e), ⟨pattern, inputs, [], true⟩), x)
    | (.ok [], x) => advance pattern inputs x
    | (.ok (result :: pending), x) =>
      ((some (.ok result), ⟨pattern, inputs, pending, false⟩), x)

/-- Pull the next row. -/
def pull (s : MergeStream) (x : Execution) : (Pull × MergeStream) × Execution :=
  match s.pending with
  | row :: pending => ((some (.ok row), { s with pending }), x)
  | [] => if s.failed then ((none, s), x) else advance s.pattern s.inputs x

/-! ## Draining -/

/-- What is left of a stream: the rows to be merged, then the results to be
handed out. -/
def remaining (s : MergeStream) : Nat × Nat := (s.inputs.length, s.pending.length)

/-- Advancing past some row leaves fewer rows to merge. -/
theorem advance_remaining {pattern : Pattern} {inputs : List BindingRow} {x x' : Execution}
    {row : BindingRow} {s : MergeStream}
    (h : advance pattern inputs x = ((some (.ok row), s), x')) :
    s.inputs.length < inputs.length := by
  induction inputs generalizing x with
  | nil => simp [advance] at h
  | cons first rest ih =>
    unfold advance at h
    split at h
    · simp at h
    · exact Nat.lt_succ_of_lt (ih h)
    · simp only [Prod.mk.injEq] at h
      rw [← h.1.2]
      exact Nat.lt_succ_self _

/-- A pull that gives a row leaves less. -/
theorem pull_remaining {s s' : MergeStream} {x x' : Execution} {row : BindingRow}
    (h : s.pull x = ((some (.ok row), s'), x')) :
    Prod.Lex (· < ·) (· < ·) s'.remaining s.remaining := by
  unfold pull at h
  split at h
  · rename_i next pending eq
    simp only [Prod.mk.injEq] at h
    rw [← h.1.2, remaining, remaining, eq]
    exact .right _ (Nat.lt_succ_self _)
  · split at h
    · simp at h
    · exact .left _ _ (advance_remaining h)

/-- Pull rows until the end, applying updates to each before the next is
pulled. The first error, of a merge or of an update, ends it. -/
def drain (updates : List Update) (s : MergeStream) (x : Execution) :
    Except ExecutionError (List BindingRow) × Execution :=
  match h : s.pull x with
  | ((none, _), x) => (.ok [], x)
  | ((some (.error e), _), x) => (.error e, x)
  | ((some (.ok row), s'), x') =>
    have := pull_remaining h
    match Execution.apply row updates x' with
    | (.error e, x) => (.error e, x)
    | (.ok (), x) => match drain updates s' x with
      | (.ok rows, x) => (.ok (row :: rows), x)
      | (.error e, x) => (.error e, x)
termination_by s.remaining
decreasing_by assumption

end MergeStream

end PropertyGraph
