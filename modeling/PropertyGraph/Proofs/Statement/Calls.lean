import PropertyGraph.Proofs.Action
import PropertyGraph.Statement.MergeStream

/-!
# Calls on an execution

The calls by which a statement is carried through, as values. Whatever they are,
they come down to six changes: merging and creating come down to creating a node or
a relationship for a slot, updating and deleting to writing a property, attaching or
detaching a label and removing an entity. So what each of these carries from one
execution to the next, every call does.
-/

namespace PropertyGraph

namespace Execution

/-- A call on an execution. -/
inductive Call where
  | merge (p : Pattern) (row : BindingRow)
  | create (p : Pattern) (row : BindingRow)
  | apply (row : BindingRow) (updates : List Update)
  | delete (target : EntityRef)
  /-- Pull the next row of a merge stream, whatever has become of the stream. -/
  | pull (stream : MergeStream)

/-- The execution after a call, failed or not. -/
def afterCall (x : Execution) : Call → Execution
  | .merge p row => (merge p row x).2
  | .create p row => (create p row x).2
  | .apply row updates => (apply row updates x).2
  | .delete target => (delete target x).2
  | .pull stream => (stream.pull x).2

/-- The execution that a list of calls leads to. -/
def afterCalls (x : Execution) (calls : List Call) : Execution := calls.foldl afterCall x

/-! ## What all calls come down to -/

variable {α : Type} {x : Execution} {R : Execution → Execution → Prop}

theorem onGraph_of_ok {action : Graph.Action α} {a : α} {g : Graph}
    (ran : action x.graph = (.ok a, g)) : onGraph action x = (.ok a, { x with graph := g }) := by
  rw [onGraph, ran]

theorem onGraph_of_error {action : Graph.Action α} {e : GraphError} {g : Graph}
    (ran : action x.graph = (.error e, g)) :
    onGraph action x = (.error (.graph e), { x with graph := g }) := by
  rw [onGraph, ran]

/-- What holds after an operation on the graph, refused or not, and then after all
that may follow an answer, holds after both. -/
theorem of_onGraph_bind {β : Type} {P : Execution → Prop} {action : Graph.Action α}
    {next : α → Action β} (refused : P { x with graph := (action x.graph).2 })
    (answered : ∀ a, P (next a { x with graph := (action x.graph).2 }).2) :
    P ((onGraph action >>= next) x).2 := by
  rcases ran : action x.graph with ⟨e | a, g⟩
  · rw [ran] at refused
    rw [RefusableAction.bind_of_error (onGraph_of_error ran)]
    exact refused
  · rw [ran] at answered
    rw [RefusableAction.bind_of_ok (onGraph_of_ok ran)]
    exact answered a

theorem along_throw (e : ExecutionError) : RefusableAction.Along R (throw e : Action α) :=
  .stay fun _ => rfl

theorem along_get : RefusableAction.Along R (get : Action Execution) := .stay fun _ => rfl

/-! ### Creating and merging -/

/-- The relation goes along both changes that creating a pattern comes down to. -/
structure CreatesAlong (R : Execution → Execution → Prop) : Prop where
  createSlotNode : ∀ slot x, Relation.ReflTransGen R x (createSlotNode slot x).2
  createSlotRel : ∀ nodes slot, RefusableAction.Along R (createSlotRel nodes slot)

namespace CreatesAlong

theorem fillNodes (goes : CreatesAlong R) (pairs : List (NodeSlot × Option NodeId))
    (x : Execution) : Relation.ReflTransGen R x (fillNodes pairs x).2 := by
  induction pairs generalizing x with
  | nil => exact .refl
  | cons pair rest ih =>
    obtain ⟨slot, bound⟩ := pair
    cases bound with
    | some id => exact ih x
    | none => exact (goes.createSlotNode slot x).trans (ih _)

theorem create (goes : CreatesAlong R) (p : Pattern) (row : BindingRow) :
    RefusableAction.Along R (create p row) := by
  refine .bind along_get fun x => .bind (.stay fun x' => ?_) fun bound => ?_
  · cases checkCreation x.graph p row <;> rfl
  · refine .bind (fun x => goes.fillNodes _ x) fun nodes => ?_
    exact .bind (.mapM (goes.createSlotRel nodes) _) fun rels => .stay fun _ => rfl

theorem merge (goes : CreatesAlong R) (p : Pattern) (row : BindingRow) :
    RefusableAction.Along R (merge p row) := by
  refine .bind along_get fun x => ?_
  split
  · exact along_throw _
  · exact .bind (goes.create p row) fun _ => .stay fun _ => rfl
  · exact .stay fun _ => rfl

/-- Advancing a stream merges rows until one has results. -/
theorem advance (goes : CreatesAlong R) (p : Pattern) (inputs : List BindingRow)
    (x : Execution) : Relation.ReflTransGen R x (MergeStream.advance p inputs x).2 := by
  induction inputs generalizing x with
  | nil => exact .refl
  | cons row rest ih =>
    have merged := goes.merge p row x
    unfold MergeStream.advance
    split
    · rename_i ran
      rwa [ran] at merged
    · rename_i ran
      rw [ran] at merged
      exact merged.trans (ih _)
    · rename_i ran
      rwa [ran] at merged

theorem pull (goes : CreatesAlong R) (s : MergeStream) (x : Execution) :
    Relation.ReflTransGen R x (s.pull x).2 := by
  unfold MergeStream.pull
  split
  · exact .refl
  · split
    · exact .refl
    · exact goes.advance s.pattern s.inputs x

end CreatesAlong

/-! ### Updating and deleting -/

/-- The relation goes along the four changes that updates and deletions come down to. -/
structure UpdatesAlong (R : Execution → Execution → Prop) : Prop where
  setProperty : ∀ target key value, RefusableAction.Along R (setProperty target key value)
  addLabel : ∀ var target label, RefusableAction.Along R (addLabel var target label)
  removeLabel : ∀ var target label, RefusableAction.Along R (removeLabel var target label)
  remove : ∀ target, RefusableAction.Along R (remove target)

namespace UpdatesAlong

theorem change (goes : UpdatesAlong R) (var : String) (target : EntityRef)
    (action : UpdateAction) : RefusableAction.Along R (change var target action) := by
  cases action with
  | setProperty key value => exact goes.setProperty target key value
  | removeProperty key => exact goes.setProperty target key .null
  | addLabel label => exact goes.addLabel var target label
  | removeLabel label => exact goes.removeLabel var target label
  | delete => exact goes.remove target

theorem applyOne (goes : UpdatesAlong R) (row : BindingRow) (update : Update) :
    RefusableAction.Along R (applyOne row update) := by
  unfold Execution.applyOne
  split
  · exact along_throw _
  · rename_i target _
    refine .bind along_get fun x => ?_
    split
    · split
      · exact .stay fun _ => rfl
      · exact along_throw _
    · exact goes.change update.var target update.action

theorem apply (goes : UpdatesAlong R) (row : BindingRow) (updates : List Update) :
    RefusableAction.Along R (apply row updates) := .forM (goes.applyOne row) updates

theorem delete (goes : UpdatesAlong R) (target : EntityRef) :
    RefusableAction.Along R (delete target) := by
  refine .bind along_get fun x => ?_
  split
  · exact .stay fun _ => rfl
  · exact goes.remove target

end UpdatesAlong

/-! ### All calls -/

/-- The relation goes along each of the six changes that calls come down to. -/
structure GoesAlong (R : Execution → Execution → Prop) : Prop where
  createSlotNode : ∀ slot x, Relation.ReflTransGen R x (createSlotNode slot x).2
  createSlotRel : ∀ nodes slot, RefusableAction.Along R (createSlotRel nodes slot)
  setProperty : ∀ target key value, RefusableAction.Along R (setProperty target key value)
  addLabel : ∀ var target label, RefusableAction.Along R (addLabel var target label)
  removeLabel : ∀ var target label, RefusableAction.Along R (removeLabel var target label)
  remove : ∀ target, RefusableAction.Along R (remove target)

namespace GoesAlong

theorem creates (goes : GoesAlong R) : CreatesAlong R :=
  ⟨goes.createSlotNode, goes.createSlotRel⟩

theorem updates (goes : GoesAlong R) : UpdatesAlong R :=
  ⟨goes.setProperty, goes.addLabel, goes.removeLabel, goes.remove⟩

theorem afterCall (goes : GoesAlong R) (x : Execution) (call : Call) :
    Relation.ReflTransGen R x (x.afterCall call) := by
  cases call with
  | merge p row => exact goes.creates.merge p row x
  | create p row => exact goes.creates.create p row x
  | apply row updates => exact goes.updates.apply row updates x
  | delete target => exact goes.updates.delete target x
  | pull stream => exact goes.creates.pull stream x

theorem afterCalls (goes : GoesAlong R) (x : Execution) (calls : List Call) :
    Relation.ReflTransGen R x (x.afterCalls calls) := by
  induction calls generalizing x with
  | nil => exact .refl
  | cons call rest ih => exact (goes.afterCall x call).trans (ih _)

end GoesAlong

end Execution

end PropertyGraph
