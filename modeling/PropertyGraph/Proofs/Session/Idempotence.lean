import PropertyGraph.Proofs.Session.Requests
import PropertyGraph.Proofs.Statement.Repetition

/-!
# Merging is idempotent

A merge statement that has succeeded can be given again: it changes nothing and
answers all the rows it answered before. What can be more the second time are
matches through what the first time created. The exception is a path with a
literal that is not a number: nothing ever matches it, and each time it is merged
every row gets an instance of its own.
-/

namespace PropertyGraph

namespace Session

/-- A merge without updates that succeeds has merged its rows in turn. -/
theorem of_mergeWith {path : Path} {inputs : List BindingRow} {s s' : Session}
    {result : StatementResult} (merged : mergeWith path inputs [] s = (.ok result, s')) :
    ∃ p blocks x, Pattern.ofPaths [path] = .ok p ∧
      (inputs.mapM (Execution.merge p) : Execution.Action _) (.start s.graph) = (.ok blocks, x) ∧
      result = ⟨blocks.flatten, x.stats⟩ ∧ s' = ⟨x.graph⟩ := by
  obtain ⟨p, blocks, x, compiled, ran, rfl, rfl⟩ := blocks_of_mergeWith merged
  rw [MergeStream.mergeEach_nil] at ran
  exact ⟨p, blocks, x, compiled, ran, rfl, rfl⟩

theorem isNaN_valueBlind : ValueBlind fun literal => literal.2.isNaN = true := by
  intro a b _ equal
  show a.2.isNaN = true ↔ b.2.isNaN = true
  rw [Value.isNaN_congr equal]

/-- In a reachable session a path without a literal that is not a number, once
merged from rows, can be merged from them again: that succeeds, counts no change
and makes none, and answers every row it answered before, as often as before. A
path with such a literal matches nothing in any reachable graph, and merging it
adds an instance for each row. -/
theorem mergeWith_idempotent {s : Session} (reachable : s.Reachable) (path : Path)
    (inputs : List BindingRow) :
    ((∀ literal ∈ path.literals, literal.2.isNaN = false) →
      ∀ result s', mergeWith path inputs [] s = (.ok result, s') →
        ∃ again, mergeWith path inputs [] s' = (.ok again, s') ∧ again.stats = .none ∧
          result.rows.Subperm again.rows) ∧
      ((∃ literal ∈ path.literals, literal.2.isNaN = true) →
        ∀ p, Pattern.ofPaths [path] = .ok p →
          (∀ (g : Graph) row rows, g.Reachable → g.findAll p row = .ok rows → rows = []) ∧
          ∀ result s', mergeWith path inputs [] s = (.ok result, s') →
            Execution.InstantiatesEach p inputs s.graph result.rows s'.graph) := by
  constructor
  · intro numbers result s' merged
    obtain ⟨p, blocks, x, compiled, ran, rfl, rfl⟩ := of_mergeWith merged
    have wellFormed := Pattern.wellFormed_of_ofPaths compiled
    have tidy := Pattern.tidy_of_ofPaths compiled
    have numbers' : ∀ literal ∈ p.literals, literal.2.isNaN = false := by
      intro literal mem
      rw [← Bool.not_eq_true]
      intro notNumber
      obtain ⟨other, mem', notNumber'⟩ :=
        (Pattern.exists_literal_ofPath_iff isNaN_valueBlind compiled).1 ⟨literal, mem, notNumber⟩
      rw [numbers other mem'] at notNumber'
      cases notNumber'
    obtain ⟨_, answers⟩ :=
      Execution.mapM_merge_answers reachable.graph wellFormed tidy numbers' ran
    have reachable' : (Execution.start x.graph).graph.Reachable := by
      have kept := (reachable.after (.run (.mergeWith path inputs []))).graph
      rw [after, run, merged] at kept
      exact kept
    obtain ⟨again, ran', among⟩ := Execution.mapM_merge_again (x := .start x.graph)
      reachable'.coherent wellFormed answers
    rw [← MergeStream.mergeEach_nil] at ran'
    have repeated := mergeWith_of_blocks (s := ⟨x.graph⟩) compiled ran'
    exact ⟨_, repeated, rfl, among⟩
  · intro notNumber p compiled
    have wellFormed := Pattern.wellFormed_of_ofPaths compiled
    have notNumber' := (Pattern.exists_literal_ofPath_iff isNaN_valueBlind compiled).2 notNumber
    have never : ∀ (g : Graph) row rows, g.Reachable → g.findAll p row = .ok rows →
        rows = [] := by
      intro g row rows reachable answered
      obtain ⟨found, _, holds, rfl⟩ := reachable.coherent.of_findAll wellFormed answered
      rw [List.map_eq_nil_iff, List.eq_nil_iff_forall_not_mem]
      intro m mem
      exact Graph.not_holds_of_isNaN notNumber' ((holds m).1 mem)
    refine ⟨never, fun result s' merged => ?_⟩
    obtain ⟨p', blocks, x, compiled', ran, rfl, rfl⟩ := of_mergeWith merged
    cases compiled.symm.trans compiled'
    exact Execution.mapM_merge_instantiates reachable.graph wellFormed
      (Pattern.tidy_of_ofPaths compiled) never ran

/-- A merge run again changes nothing; with a literal that equals nothing, not even
itself, every row creates again. -/
theorem mergeWith_idempotent_from_start :
    let s := start .standard
    let path : Path := ⟨[⟨some "p", some "Person", [("age", .int 3)]⟩, ⟨some "d", none, []⟩],
      [⟨some "r", "owns", .incoming, []⟩]⟩
    let strange : Path := ⟨[⟨some "p", none, [("age", .float .notANumber)]⟩], []⟩
    let inputs : List BindingRow := [.empty, .empty]
    let row : BindingRow := ⟨[("p", .node ⟨1⟩), ("r", .relationship ⟨1⟩), ("d", .node ⟨2⟩)]⟩
    let result : StatementResult := ⟨[row, row],
      { labelsAdded := 1, nodesCreated := 2, relationshipsCreated := 1, propertiesSet := 1 }⟩
    let result' : StatementResult := ⟨[⟨[("p", .node ⟨1⟩)]⟩, ⟨[("p", .node ⟨2⟩)]⟩],
      { nodesCreated := 2, propertiesSet := 2 }⟩
    let merged := mergeWith path inputs [] s
    let merged' := mergeWith strange inputs [] s
    s.Reachable ∧ (∀ literal ∈ path.literals, literal.2.isNaN = false) ∧ merged.1 = .ok result ∧
      (∃ again, mergeWith path inputs [] merged.2 = (.ok again, merged.2) ∧
        again.stats = .none ∧ result.rows.Subperm again.rows) ∧
      (∃ literal ∈ strange.literals, literal.2.isNaN = true) ∧ merged'.1 = .ok result' ∧
      ∃ p, Pattern.ofPaths [strange] = .ok p ∧
        Execution.InstantiatesEach p inputs s.graph result'.rows merged'.2.graph := by
  intro s path strange inputs row result result' merged merged'
  have reachable : s.Reachable := .start .standard
  have numbers : ∀ literal ∈ path.literals, literal.2.isNaN = false := by decide
  have notNumber : ∃ literal ∈ strange.literals, literal.2.isNaN = true := by decide
  have compiled : Pattern.ofPaths [path] = .ok ⟨[⟨some "p", ["Person"], [("age", .int 3)]⟩,
      ⟨some "d", [], []⟩], [⟨some "r", "owns", 1, 0, []⟩], [.node 0, .rel 0, .node 1]⟩ := rfl
  have compiled' : Pattern.ofPaths [strange] = .ok ⟨[⟨some "p", [],
      [("age", .float .notANumber)]⟩], [], [.node 0]⟩ := rfl
  -- The stream is drained by well-founded recursion; the two loops evaluate.
  have ran : merged.1 = .ok result := by
    rw [show merged = _ from mergeWith_of_ok compiled]
    decide +kernel
  have ran' : merged'.1 = .ok result' := by
    rw [show merged' = _ from mergeWith_of_ok compiled']
    decide +kernel
  have repeated := (mergeWith_idempotent reachable path inputs).1 numbers result _
    (Prod.ext ran rfl)
  have instances := ((mergeWith_idempotent reachable strange inputs).2 notNumber _ compiled').2
    result' _ (Prod.ext ran' rfl)
  exact ⟨reachable, numbers, ran, repeated, notNumber, ran', _, compiled', instances⟩

end Session

end PropertyGraph
