import PropertyGraph.Proofs.Pattern.Joinable
import PropertyGraph.Proofs.Session.Requests
import PropertyGraph.Proofs.Statement.Refusal

/-!
# Errors in the definition of a statement

A statement joins its paths into a pattern before it does anything else. What it is
refused for there is an error in its definition, and nothing has been written by then.
What it is refused for afterwards, in matching, in creating or in updating, is about the
graph or about what a row binds, and is never taken for an error in the definition,
however the error was wrapped on its way up.
-/

namespace PropertyGraph

variable {α : Type} {g : Graph} {p : Pattern} {row : BindingRow}

/-! ## Joining paths -/

/-- All that can be wrong with paths is wrong with their definition. -/
theorem PathFault.isDefinition {paths : List Path} {e : PatternError} (fault : PathFault paths e) :
    e.isDefinition = true := by
  cases fault with
  | noNode => rfl
  | misshapen => rfl
  | descriptor fault =>
    cases fault with
    | untyped => rfl
    | literals _ fault => cases fault <;> rfl
    | kinds => rfl
    | twice => rfl

/-! ## Matching -/

namespace Graph

theorem not_isDefinition_of_boundNodes {e : PatternError} {slots : List (NodeSlot × Nat)}
    (refused : g.boundNodes row slots = .error e) : e.isDefinition = false := by
  induction slots with
  | nil => cases refused
  | cons pair rest ih =>
    obtain ⟨slot, position⟩ := pair
    unfold boundNodes at refused
    split at refused
    · exact ih refused
    · cases refused
      rfl
    · split at refused
      · exact ih (map_eq_error_iff.1 refused)
      · cases refused
        rfl

theorem not_isDefinition_of_boundRels {e : PatternError} {slots : List (RelSlot × Nat)}
    (refused : g.boundRels row slots = .error e) : e.isDefinition = false := by
  induction slots with
  | nil => cases refused
  | cons pair rest ih =>
    obtain ⟨slot, position⟩ := pair
    unfold boundRels at refused
    split at refused
    · exact ih refused
    · cases refused
      rfl
    · split at refused
      · exact ih (map_eq_error_iff.1 refused)
      · cases refused
        rfl

/-- Planning is refused for what the row binds. -/
theorem not_isDefinition_of_planMatch {e : PatternError} (refused : g.planMatch p row = .error e) :
    e.isDefinition = false := by
  rcases of_bind_eq_error refused with refused | ⟨nodes, _, refused⟩
  · exact not_isDefinition_of_boundNodes refused
  · rcases of_bind_eq_error refused with refused | ⟨rels, _, refused⟩
    · exact not_isDefinition_of_boundRels refused
    · cases refused

theorem not_isDefinition_of_findAll {e : PatternError} (refused : g.findAll p row = .error e) :
    e.isDefinition = false :=
  not_isDefinition_of_planMatch (map_eq_error_iff.1 refused)

end Graph

/-! ## Executing -/

namespace Execution

/-- As the error of a statement it is not one in the definition. -/
abbrev Late (e : ExecutionError) : Prop := (SessionError.execution e).isDefinition = false

/-- The action is never refused for an error in the definition. -/
abbrev RefusedLate (action : Action α) : Prop := RefusableAction.RefusedFor Late action

theorem late_of_boundNode? {e : ExecutionError} {slot : NodeSlot}
    (refused : boundNode? g row slot = .error e) : Late e := by
  unfold boundNode? at refused
  split at refused
  · cases refused
  · cases refused
    rfl
  · split at refused
    · cases refused
      rfl
    · split at refused
      · cases refused
      · cases refused
        rfl

theorem late_of_checkCreation {e : ExecutionError} (refused : checkCreation g p row = .error e) :
    Late e := by
  rcases of_bind_eq_error refused with refused | ⟨bound, _, refused⟩
  · obtain ⟨slot, _, refused⟩ := of_mapM_eq_error refused
    exact late_of_boundNode? refused
  · split at refused
    · cases refused
      rfl
    · cases refused

theorem refusedLate_createSlotRel (nodes : List NodeId) (slot : RelSlot) :
    RefusedLate (createSlotRel nodes slot) :=
  .bind (refusedFor_onGraph (fun _ => rfl) _) fun _ => .bind (.modify _) fun _ =>
    .bind (.modify _) fun _ => .pure _

theorem refusedLate_create (p : Pattern) (row : BindingRow) : RefusedLate (create p row) := by
  refine .bind .get fun x => .bind (.ofExcept fun e => late_of_checkCreation) fun bound => ?_
  refine .bind (.modifyGet _) fun nodes => ?_
  exact .bind (.mapM (refusedLate_createSlotRel nodes) _) fun rels => .pure _

theorem refusedLate_merge (p : Pattern) (row : BindingRow) : RefusedLate (merge p row) := by
  refine .bind .get fun x => ?_
  split
  · rename_i e refused
    refine .throw ?_
    exact Graph.not_isDefinition_of_findAll refused
  · exact .bind (refusedLate_create p row) fun _ => .pure _
  · exact .pure _

theorem refusedLate_applyOne (row : BindingRow) (update : Update) :
    RefusedLate (applyOne row update) := by
  unfold applyOne
  split
  · exact .throw rfl
  · rename_i target _
    refine .bind .get fun x => ?_
    split
    · split
      · exact .pure _
      · exact .throw rfl
    · exact refusedFor_change (fun _ => rfl) (fun _ => rfl) update.var target update.action

theorem refusedLate_apply (row : BindingRow) (updates : List Update) :
    RefusedLate (apply row updates) := .forM (refusedLate_applyOne row) updates

theorem refusedLate_mergeEach (p : Pattern) (updates : List Update) (inputs : List BindingRow) :
    RefusedLate (MergeStream.mergeEach p updates inputs) := by
  refine .mapM (fun row => .bind (refusedLate_merge p row) fun rows => ?_) inputs
  exact .bind (.forM (fun row => refusedLate_apply row updates) rows) fun _ => .pure _

end Execution

/-! ## Statements -/

/-- The paths that a statement joins; a statement about an index joins none. -/
def Statement.paths? : Statement → Option (List Path)
  | .merge path => some [path]
  | .mergeWith path _ _ => some [path]
  | .create paths _ => some paths
  | .matchPath path _ => some [path]
  | .matchUpdate path _ => some [path]
  | .createIndex _ => none
  | .dropIndex _ => none

namespace Session

variable {s : Session} {statement : Statement} {paths : List Path}

/-- A statement whose paths form no pattern fails with what is wrong with them, and
leaves the session as it was. -/
theorem run_of_refused {e : PatternError} (joins : statement.paths? = some paths)
    (refused : Pattern.ofPaths paths = .error e) : run statement s = (.error (.pattern e), s) := by
  cases statement <;> cases joins <;> exact RefusableAction.bind_of_error (define_of_error refused)

theorem not_isDefinition_of_execute {action : Execution.Action (List BindingRow)}
    (late : Execution.RefusedLate action) {e : SessionError} {s' : Session}
    (failed : execute action s = (.error e, s')) : e.isDefinition = false := by
  unfold execute at failed
  split at failed
  · cases failed
  · rename_i e' x refused
    cases failed
    exact late _ e' x refused

theorem not_isDefinition_of_declare {action : Graph.Action Unit} {stats : Statistics}
    {e : SessionError} {s' : Session} (failed : declare action stats s = (.error e, s')) :
    e.isDefinition = false := by
  unfold declare at failed
  split at failed
  · cases failed
  · cases failed
    rfl

theorem not_isDefinition_of_mergeWith {path : Path} {inputs : List BindingRow}
    {updates : List Update} {e : SessionError} {s' : Session}
    (joined : Pattern.ofPaths [path] = .ok p)
    (failed : mergeWith path inputs updates s = (.error e, s')) : e.isDefinition = false := by
  rw [mergeWith_of_ok joined] at failed
  refine not_isDefinition_of_execute ?_ failed
  exact .bind (Execution.refusedLate_mergeEach p updates inputs) fun _ => .pure _

theorem not_isDefinition_of_matchPath {path : Path} {inputs : List BindingRow}
    {e : SessionError} {s' : Session} (joined : Pattern.ofPaths [path] = .ok p)
    (failed : matchPath path inputs s = (.error e, s')) : e.isDefinition = false := by
  rw [matchPath_of_ok joined] at failed
  cases found : inputs.mapM (s.graph.findAll p) with
  | ok blocks =>
    rw [found] at failed
    cases failed
  | error e' =>
    rw [found] at failed
    cases failed
    obtain ⟨row, _, refused⟩ := of_mapM_eq_error found
    exact Graph.not_isDefinition_of_findAll refused

theorem not_isDefinition_of_matchUpdate {path : Path} {updates : List Update} {e : SessionError}
    {s' : Session} (joined : Pattern.ofPaths [path] = .ok p)
    (failed : matchUpdate path updates s = (.error e, s')) : e.isDefinition = false := by
  cases found : s.graph.findAll p .empty with
  | error e' =>
    rw [matchUpdate_of_unmatched joined found] at failed
    cases failed
    exact Graph.not_isDefinition_of_findAll found
  | ok rows =>
    rw [matchUpdate_of_ok joined found] at failed
    refine not_isDefinition_of_execute ?_ failed
    refine .bind (.forM (fun row => ?_) rows) fun _ => .pure _
    exact Execution.refusedLate_apply row updates

theorem not_isDefinition_of_explainMatch {path : Path} {e : SessionError}
    (joined : Pattern.ofPaths [path] = .ok p) (failed : s.explainMatch path = .error e) :
    e.isDefinition = false := by
  have planning : s.explainMatch path = (s.graph.planMatch p .empty).mapError .pattern := by
    rw [explainMatch, Pattern.ofPath, joined]
    rfl
  rw [planning] at failed
  obtain ⟨cause, refused, rfl⟩ := mapError_eq_error_iff.1 failed
  exact Graph.not_isDefinition_of_planMatch refused

/-- Once the paths of a statement have been joined, it fails with no error in the
definition. -/
theorem not_isDefinition_of_run {e : SessionError} {s' : Session}
    (joined : ∀ paths, statement.paths? = some paths → ∃ p, Pattern.ofPaths paths = .ok p)
    (failed : run statement s = (.error e, s')) : e.isDefinition = false := by
  cases statement with
  | merge path =>
    obtain ⟨p, joined⟩ := joined _ rfl
    exact not_isDefinition_of_mergeWith joined failed
  | mergeWith path inputs updates =>
    obtain ⟨p, joined⟩ := joined _ rfl
    exact not_isDefinition_of_mergeWith joined failed
  | create paths updates =>
    obtain ⟨p, joined⟩ := joined _ rfl
    rw [run, create_of_ok joined] at failed
    refine not_isDefinition_of_execute ?_ failed
    refine .bind (Execution.refusedLate_create p .empty) fun row => ?_
    exact .bind (Execution.refusedLate_apply row updates) fun _ => .pure _
  | matchPath path inputs =>
    obtain ⟨p, joined⟩ := joined _ rfl
    exact not_isDefinition_of_matchPath joined failed
  | matchUpdate path updates =>
    obtain ⟨p, joined⟩ := joined _ rfl
    exact not_isDefinition_of_matchUpdate joined failed
  | createIndex name => exact not_isDefinition_of_declare failed
  | dropIndex name => exact not_isDefinition_of_declare failed

/-- A statement that fails with an error in the definition has paths that form no
pattern. -/
theorem refused_of_isDefinition {e : SessionError} {s' : Session}
    (failed : run statement s = (.error e, s')) (definition : e.isDefinition = true) :
    ∃ paths cause, statement.paths? = some paths ∧ Pattern.ofPaths paths = .error cause := by
  by_contra never
  have late : e.isDefinition = false := by
    refine not_isDefinition_of_run (fun paths joins => ?_) failed
    cases read : Pattern.ofPaths paths with
    | ok p => exact ⟨p, rfl⟩
    | error cause => exact (never ⟨paths, cause, joins, read⟩).elim
  rw [late] at definition
  cases definition

/-- In any session a statement fails with an error in the definition exactly if it has
paths that form no pattern; the error is then what is wrong with them, and the session
is as before. The same holds of explaining a match. No error of matching, of creating,
of merging or of updating is one in the definition, whatever pattern, row and updates it
comes from and wherever the execution has got to. -/
theorem definition_error_iff (s : Session) :
    (∀ statement : Statement,
      ((∃ e s', run statement s = (.error e, s') ∧ e.isDefinition = true) ↔
        ∃ paths cause, statement.paths? = some paths ∧ Pattern.ofPaths paths = .error cause) ∧
      ∀ e s', run statement s = (.error e, s') → e.isDefinition = true → s' = s) ∧
    (∀ path, (∃ e, s.explainMatch path = .error e ∧ e.isDefinition = true) ↔
      ∃ cause, Pattern.ofPaths [path] = .error cause) ∧
    ∀ (x : Execution) (p : Pattern) (row : BindingRow) (updates : List Update),
      (∀ cause, x.graph.findAll p row = .error cause →
        (SessionError.pattern cause).isDefinition = false) ∧
      ∀ cause x', (Execution.create p row x = (.error cause, x') ∨
          Execution.merge p row x = (.error cause, x') ∨
          Execution.apply row updates x = (.error cause, x')) →
        (SessionError.execution cause).isDefinition = false := by
  refine ⟨fun statement => ?_, fun path => ⟨fun failed => ?_, fun refused => ?_⟩,
    fun x p row updates => ⟨fun cause refused => ?_, fun cause x' failed => ?_⟩⟩
  · refine ⟨⟨fun failed => ?_, fun refused => ?_⟩, fun e s' failed definition => ?_⟩
    · obtain ⟨e, s', failed, definition⟩ := failed
      exact refused_of_isDefinition failed definition
    · obtain ⟨paths, cause, joins, refused⟩ := refused
      exact ⟨_, _, run_of_refused joins refused, (Pattern.fault_of_ofPaths refused).isDefinition⟩
    · obtain ⟨paths, cause, joins, refused⟩ := refused_of_isDefinition failed definition
      cases (run_of_refused joins refused).symm.trans failed
      rfl
  · obtain ⟨e, failed, definition⟩ := failed
    cases read : Pattern.ofPaths [path] with
    | error cause => exact ⟨cause, rfl⟩
    | ok p =>
      rw [not_isDefinition_of_explainMatch read failed] at definition
      cases definition
  · obtain ⟨cause, refused⟩ := refused
    refine ⟨.pattern cause, ?_, (Pattern.fault_of_ofPaths refused).isDefinition⟩
    rw [explainMatch, Pattern.ofPath, refused]
    rfl
  · exact Graph.not_isDefinition_of_findAll refused
  · rcases failed with failed | failed | failed
    · exact Execution.refusedLate_create p row x cause x' failed
    · exact Execution.refusedLate_merge p row x cause x' failed
    · exact Execution.refusedLate_apply row updates x cause x' failed

/-- A null literal is an error of the definition; a relationship bound where a node
belongs is not. -/
theorem definition_error_iff_on_null_literal :
    let s := start .standard
    let faulty : List Path := [⟨[⟨some "a", none, [("k", .null)]⟩], []⟩]
    let sound : Path := ⟨[⟨some "a", none, []⟩], []⟩
    let row : BindingRow := ⟨[("a", .relationship ⟨1⟩)]⟩
    let mismatch : PatternError := .bindingKindMismatch "a" .node .relationship
    Pattern.ofPaths faulty = .error (.nullProperty "a" "k") ∧
      (∃ e, run (.create faulty []) s = (.error e, s) ∧ e.isDefinition = true) ∧
      (mergeWith sound [row] [] s).1 = .error (.execution (.pattern mismatch)) ∧
      (SessionError.execution (.pattern mismatch)).isDefinition = false := by
  intro s faulty sound row mismatch
  have refused : Pattern.ofPaths faulty = .error (.nullProperty "a" "k") := by decide
  have joined : Pattern.ofPaths [sound] = .ok ⟨[⟨some "a", [], []⟩], [], [.node 0]⟩ := rfl
  have unmatched : Execution.merge ⟨[⟨some "a", [], []⟩], [], [.node 0]⟩ row (.start s.graph) =
      (.error (.pattern mismatch), .start s.graph) := rfl
  have failed : (mergeWith sound [row] [] s).1 = .error (.execution (.pattern mismatch)) := by
    rw [mergeWith_of_ok joined]
    rfl
  obtain ⟨statements, _, stages⟩ := definition_error_iff s
  obtain ⟨e, s', ran, definition⟩ := (statements (.create faulty [])).1.2 ⟨_, _, rfl, refused⟩
  have same := (statements (.create faulty [])).2 e s' ran definition
  exact ⟨refused, ⟨e, same ▸ ran, definition⟩, failed,
    (stages _ _ row []).2 _ _ (.inr (.inl unmatched))⟩

end Session

end PropertyGraph
