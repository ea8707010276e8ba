import PropertyGraph.Proofs.Graph.Refusal
import PropertyGraph.Proofs.Statement.Reachable

/-!
# Updates that fail

An update is refused before it writes: by the row, by what the statement has deleted,
by the kind of the entity, or by the graph, which changes nothing when it refuses. The
counters and the list of deleted entities are touched only after the graph has
answered. So a list of updates that fails has done exactly what the updates before the
failing one do.
-/

namespace PropertyGraph

namespace Execution

variable {α : Type} {x : Execution}

/-- Refused in this execution, the action leaves it as it is. -/
abbrev CleanIn (x : Execution) (action : Action α) : Prop := RefusableAction.CleanAt x action

/-! ## Single changes -/

theorem clean_onGraph {action : Graph.Action α} (clean : x.graph.CleanIn action) :
    x.CleanIn (onGraph action) := by
  intro e x' refused
  rcases ran : action x.graph with ⟨e' | a, g⟩
  · cases (onGraph_of_error ran).symm.trans refused
    rw [clean e' g ran]
  · cases (onGraph_of_ok ran).symm.trans refused

theorem clean_setProperty (x : Execution) (target : EntityRef) (key : String) (value : Value) :
    x.CleanIn (setProperty target key value) :=
  .bind (clean_onGraph (Graph.clean_setProperty target key value)) fun _ => .modify _

theorem clean_addLabel (x : Execution) (var : String) (target : EntityRef) (label : String) :
    x.CleanIn (addLabel var target label) := by
  cases target with
  | relationship _ => exact .throw _
  | node id =>
    refine .bind_get (.bind (clean_onGraph (Graph.clean_addLabel id label)) fun attached => ?_)
    split
    · exact .modify _
    · exact .pure _

theorem clean_removeLabel (x : Execution) (var : String) (target : EntityRef) (label : String) :
    x.CleanIn (removeLabel var target label) := by
  cases target with
  | relationship _ => exact .throw _
  | node id => exact .bind (clean_onGraph (Graph.clean_removeLabel id label)) fun _ => .pure _

/-- A removal counts and notes what the graph has answered that it took away. -/
theorem clean_remove (linked : x.graph.Linked) (target : EntityRef) :
    x.CleanIn (remove target) := by
  cases target with
  | node id =>
    exact .bind (clean_onGraph (linked.clean_deleteNode id)) fun _ =>
      .bind (.modify _) fun _ => .modify _
  | relationship id =>
    exact .bind (clean_onGraph (Graph.clean_deleteRelationship id)) fun _ =>
      .bind (.modify _) fun _ => .modify _

theorem clean_change (linked : x.graph.Linked) (var : String) (target : EntityRef)
    (action : UpdateAction) : x.CleanIn (change var target action) := by
  cases action with
  | setProperty key value => exact clean_setProperty x target key value
  | removeProperty key => exact clean_setProperty x target key .null
  | addLabel label => exact clean_addLabel x var target label
  | removeLabel label => exact clean_removeLabel x var target label
  | delete => exact clean_remove linked target

/-! ## What changes are refused for -/

section Kinds

variable {P : ExecutionError → Prop}

theorem refusedFor_onGraph (graph : ∀ cause, P (.graph cause)) (action : Graph.Action α) :
    RefusableAction.RefusedFor P (onGraph action) := by
  intro x e x' refused
  unfold onGraph at refused
  split at refused
  · cases refused
  · cases refused
    exact graph _

theorem refusedFor_setProperty (graph : ∀ cause, P (.graph cause)) (target : EntityRef)
    (key : String) (value : Value) :
    RefusableAction.RefusedFor P (setProperty target key value) :=
  .bind (refusedFor_onGraph graph _) fun _ => .modify _

theorem refusedFor_addLabel (graph : ∀ cause, P (.graph cause))
    (label : ∀ var, P (.labelOnRelationship var)) (var : String) (target : EntityRef)
    (name : String) : RefusableAction.RefusedFor P (addLabel var target name) := by
  cases target with
  | relationship _ => exact .throw (label var)
  | node id =>
    refine .bind .get fun x => .bind (refusedFor_onGraph graph _) fun attached => ?_
    split
    · exact .modify _
    · exact .pure _

theorem refusedFor_removeLabel (graph : ∀ cause, P (.graph cause))
    (label : ∀ var, P (.labelOnRelationship var)) (var : String) (target : EntityRef)
    (name : String) : RefusableAction.RefusedFor P (removeLabel var target name) := by
  cases target with
  | relationship _ => exact .throw (label var)
  | node id => exact .bind (refusedFor_onGraph graph _) fun _ => .pure _

theorem refusedFor_remove (graph : ∀ cause, P (.graph cause)) (target : EntityRef) :
    RefusableAction.RefusedFor P (remove target) := by
  cases target with
  | node id =>
    exact .bind (refusedFor_onGraph graph _) fun _ => .bind (.modify _) fun _ => .modify _
  | relationship id =>
    exact .bind (refusedFor_onGraph graph _) fun _ => .bind (.modify _) fun _ => .modify _

/-- A change is refused by the graph, or because labels are for nodes only. -/
theorem refusedFor_change (graph : ∀ cause, P (.graph cause))
    (label : ∀ var, P (.labelOnRelationship var)) (var : String) (target : EntityRef)
    (action : UpdateAction) : RefusableAction.RefusedFor P (change var target action) := by
  cases action with
  | setProperty key value => exact refusedFor_setProperty graph target key value
  | removeProperty key => exact refusedFor_setProperty graph target key .null
  | addLabel name => exact refusedFor_addLabel graph label var target name
  | removeLabel name => exact refusedFor_removeLabel graph label var target name
  | delete => exact refusedFor_remove graph target

end Kinds

/-! ## Updates and deletions -/

/-- An update that fails changes nothing. -/
theorem clean_applyOne (linked : x.graph.Linked) (row : BindingRow) (update : Update) :
    x.CleanIn (applyOne row update) := by
  unfold applyOne
  split
  · exact .throw _
  · rename_i target _
    refine .bind_get ?_
    split
    · split
      · exact .pure _
      · exact .throw _
    · exact clean_change linked update.var target update.action

/-- A deletion that fails changes nothing. -/
theorem clean_delete (linked : x.graph.Linked) (target : EntityRef) :
    x.CleanIn (delete target) := by
  refine .bind_get ?_
  split
  · exact .pure _
  · exact clean_remove linked target

/-- Applying two lists of updates in a row is applying their concatenation. -/
theorem apply_append (x : Execution) (row : BindingRow) (us vs : List Update) :
    apply row (us ++ vs) x = match apply row us x with
      | (.ok (), x') => apply row vs x'
      | (.error e, x') => (.error e, x') := by
  rw [apply, RefusableAction.forM_append, apply]
  rcases us.forM (applyOne row) x with ⟨_ | _, _⟩ <;> rfl

/-- What a list of updates that fails ends in is where the updates before the failing
one lead, which changes nothing itself. -/
theorem apply_eq_error_iff (reachable : x.graph.Reachable) {row : BindingRow}
    {updates : List Update} {e : ExecutionError} {x' : Execution} :
    apply row updates x = (.error e, x') ↔ ∃ before failing rest,
      updates = before ++ failing :: rest ∧ apply row before x = (.ok (), x') ∧
        applyOne row failing x' = (.error e, x') := by
  rw [apply, RefusableAction.forM_eq_error_iff]
  constructor
  · intro given
    rcases given with ⟨before, failing, rest, x₁, split, ran, refused⟩
    have walked := operating_apply row before x
    rw [apply, ran] at walked
    have linked := (graph_reachable_of_operates reachable walked).coherent.linked
    cases clean_applyOne linked row failing e x' refused
    exact ⟨before, failing, rest, split, ran, refused⟩
  · intro given
    rcases given with ⟨before, failing, rest, split, ran, refused⟩
    exact ⟨before, failing, rest, x', split, ran, refused⟩

/-- An operation that a reachable graph refuses leaves the graph as it is. Applying two
lists of updates in a row is applying the one and, if that succeeds, the other. A list
of updates fails exactly if one of them does after those before it have succeeded, and
it ends where those lead, the failing one having changed nothing. A deletion that fails
changes nothing either. -/
theorem failures_are_clean :
    (∀ g : Graph, g.Reachable → ∀ operation e,
      g.reply operation = .error e → g.after operation = g) ∧
    (∀ (x : Execution) row us vs, apply row (us ++ vs) x = match apply row us x with
      | (.ok (), x') => apply row vs x'
      | (.error e, x') => (.error e, x')) ∧
    (∀ x : Execution, x.graph.Reachable → ∀ row updates e x',
      apply row updates x = (.error e, x') ↔ ∃ before failing rest,
        updates = before ++ failing :: rest ∧ apply row before x = (.ok (), x') ∧
          applyOne row failing x' = (.error e, x')) ∧
    ∀ x : Execution, x.graph.Reachable → ∀ target e x',
      delete target x = (.error e, x') → x' = x :=
  ⟨fun _ reachable _ _ refused => reachable.coherent.linked.after_of_refused refused,
    apply_append,
    fun _ reachable _ _ _ _ => apply_eq_error_iff reachable,
    fun _ reachable target => clean_delete reachable.coherent.linked target⟩

/-- Updates that fail keep what the ones before them did, and a refused deletion changes
nothing. -/
theorem failures_are_clean_after_delete :
    let g := (Graph.empty .standard).afterAll [.createNode ["A"] [], .createNode [] [],
      .createRelationship "knows" ⟨1⟩ ⟨2⟩ []]
    let dangling : Operation := .createRelationship "knows" ⟨2⟩ ⟨3⟩ []
    let row : BindingRow := ⟨[("a", .node ⟨1⟩), ("b", .node ⟨2⟩), ("r", .relationship ⟨1⟩)]⟩
    let updates : List Update := [⟨"b", .addLabel "B"⟩, ⟨"a", .delete⟩, ⟨"r", .delete⟩,
      ⟨"r", .setProperty "since" .null⟩, ⟨"b", .delete⟩]
    let x := (apply row updates (start g)).2
    let e : ExecutionError := .deletedEntity "r" (.relationship ⟨1⟩)
    let dead : ExecutionError := .graph (.nodeNotFound ⟨3⟩)
    g.Reachable ∧ g.reply dangling = .error (.nodeNotFound ⟨3⟩) ∧ g.after dangling = g ∧
      apply row updates (start g) = (.error e, x) ∧
      x.deleted = [.node ⟨1⟩, .relationship ⟨1⟩] ∧ x.stats.labelsAdded = 1 ∧
      (∃ before failing rest, updates = before ++ failing :: rest ∧
        apply row before (start g) = (.ok (), x) ∧ applyOne row failing x = (.error e, x)) ∧
      (delete (.node ⟨3⟩) (start g)).1 = .error dead ∧
      (delete (.node ⟨3⟩) (start g)).2 = start g := by
  intro g dangling row updates x e dead
  have reachable : g.Reachable := (Graph.Reachable.empty _).afterAll _
  have refused : g.reply dangling = .error (.nodeNotFound ⟨3⟩) := by decide +kernel
  have outcome : (apply row updates (start g)).1 = .error e := by decide +kernel
  have failed : apply row updates (start g) = (.error e, x) := by
    rw [← outcome]
    exact (Prod.eta _).symm
  have gone : (delete (.node ⟨3⟩) (start g)).1 = .error dead := by decide +kernel
  have missed : delete (.node ⟨3⟩) (start g) =
      (.error dead, (delete (.node ⟨3⟩) (start g)).2) := by
    rw [← gone]
    exact (Prod.eta _).symm
  exact ⟨reachable, refused, failures_are_clean.1 g reachable dangling _ refused, failed,
    by decide +kernel, by decide +kernel,
    (failures_are_clean.2.2.1 (start g) reachable row updates e x).1 failed,
    gone, failures_are_clean.2.2.2 (start g) reachable _ _ _ missed⟩

end Execution

end PropertyGraph
