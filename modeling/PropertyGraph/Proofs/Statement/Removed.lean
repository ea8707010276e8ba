import PropertyGraph.Proofs.Statement.Deleted
import PropertyGraph.Proofs.Statement.Refusal

/-!
# What the list of deleted entities holds

A statement has removed an entity if one of its calls found the entity live and left it
not live: the entity was deleted, or it was a relationship and went with its node. The
execution's own list holds exactly the entities that were removed and are not live now,
also where an identity has been given to a new entity since. So the list never stands
between an update and a live entity, and it stops every update of an entity that is
gone, deleting apart.
-/

namespace PropertyGraph

namespace Execution

variable {x x' : Execution} {e : EntityRef} {call : Call} {calls : List Call}

/-! ## Entities removed in the course of calls -/

/-- One of the calls found the entity live and left it not live. -/
def Removed (x : Execution) (calls : List Call) (e : EntityRef) : Prop :=
  ∃ earlier call later, calls = earlier ++ call :: later ∧
    (x.afterCalls earlier).graph.contains e = true ∧
    ((x.afterCalls earlier).afterCall call).graph.contains e = false

theorem not_removed_nil : ¬Removed x [] e := by
  intro removed
  rcases removed with ⟨_ | ⟨_, _⟩, _, _, split, _⟩ <;> cases split

/-- An entity was removed by the first call or by one of the others. -/
theorem removed_cons_iff : Removed x (call :: calls) e ↔
    (x.graph.contains e = true ∧ (x.afterCall call).graph.contains e = false) ∨
      Removed (x.afterCall call) calls e := by
  constructor
  · intro removed
    rcases removed with ⟨_ | ⟨first, earlier⟩, last, later, split, live, gone⟩
    · cases split
      exact .inl ⟨live, gone⟩
    · cases split
      exact .inr ⟨earlier, last, later, rfl, live, gone⟩
  · intro either
    rcases either with ⟨live, gone⟩ | ⟨earlier, last, later, rfl, live, gone⟩
    · exact ⟨[], call, calls, rfl, live, gone⟩
    · exact ⟨call :: earlier, last, later, rfl, live, gone⟩

/-- What was live and is not any more was removed on the way. -/
theorem removed_of_live (live : x.graph.contains e = true)
    (gone : (x.afterCalls calls).graph.contains e = false) : Removed x calls e := by
  induction calls generalizing x with
  | nil => cases live.symm.trans gone
  | cons call calls ih =>
    rw [removed_cons_iff]
    cases halfway : (x.afterCall call).graph.contains e with
    | false => exact .inl ⟨live, rfl⟩
    | true => exact .inr (ih halfway gone)

/-- The list holds what was on it before and what was removed since, if it is not live
now. -/
theorem mem_deleted_afterCalls_iff (reachable : x.graph.Reachable)
    (unlisted : e ∈ x.deleted → x.graph.contains e = false) :
    e ∈ (x.afterCalls calls).deleted ↔
      (e ∈ x.deleted ∨ Removed x calls e) ∧ (x.afterCalls calls).graph.contains e = false := by
  induction calls generalizing x with
  | nil =>
    constructor
    · exact fun listed => ⟨.inl listed, unlisted listed⟩
    · exact fun given => given.1.resolve_right not_removed_nil
  | cons call calls ih =>
    obtain ⟨halfway, fates⟩ := decides_afterCall x call reachable
    refine (ih halfway ((fates e).unlisted unlisted)).trans ?_
    rw [removed_cons_iff]
    refine and_congr_left fun gone => ?_
    cases fates e with
    | removed were away listed => simp [were, away, listed]
    | there live absent =>
      -- whatever came of the entity before, it is live here and so was removed later
      have later : Removed (x.afterCall call) calls e := removed_of_live live gone
      simp [later]
    | same live kept =>
      rw [kept, live]
      cases x.graph.contains e <;> simp

/-- A statement lists what it has removed and what is not live now. -/
theorem mem_deleted_iff {g : Graph} (reachable : g.Reachable) :
    e ∈ ((start g).afterCalls calls).deleted ↔
      Removed (start g) calls e ∧ ((start g).afterCalls calls).graph.contains e = false := by
  have none : e ∉ (start g).deleted := List.not_mem_nil
  rw [mem_deleted_afterCalls_iff reachable fun listed => (none listed).elim, or_iff_right none]

/-! ## Removing a live entity -/

/-- A live entity of a reachable graph can be removed, and then it is not live. -/
theorem remove_of_live (reachable : x.graph.Reachable) (live : x.graph.contains e = true) :
    ∃ x', remove e x = (.ok (), x') ∧ x'.graph.contains e = false := by
  cases e with
  | node id =>
    obtain ⟨g, deleted, deletes⟩ := reachable.coherent.linked.deleteNode_eq_ok live
    refine ⟨_, (RefusableAction.bind_of_ok (onGraph_of_ok deleted)).trans rfl, ?_⟩
    have gone := deletes.nodes id
    rw [if_pos rfl] at gone
    show g.hasNode id = false
    rw [← Bool.not_eq_true, Graph.hasNode_iff, gone]
    simp
  | relationship id =>
    obtain ⟨rel, stored⟩ := Graph.hasRelationship_iff.1 live
    refine ⟨_, (RefusableAction.bind_of_ok (onGraph_of_ok
      (Graph.deleteRelationship_eq_ok stored))).trans rfl, ?_⟩
    rw [← Bool.not_eq_true, Graph.contains_strikeRelationship_iff]
    simp

theorem delete_of_unlisted (unlisted : e ∉ x.deleted) : delete e x = remove e x := by
  have missing : ¬x.deleted.contains e = true := fun listed =>
    unlisted (List.contains_iff_mem.1 listed)
  rw [delete, RefusableAction.bind_get, if_neg missing]

/-! ## Updates refused for a deleted entity -/

/-- An update is refused for a deleted entity only if the row binds its variable to that
entity, and the entity is listed. -/
theorem of_applyOne_deletedEntity {row : BindingRow} {update : Update} {var : String}
    (refused : applyOne row update x = (.error (.deletedEntity var e), x')) :
    row.get? var = some e ∧ e ∈ x.deleted := by
  unfold applyOne at refused
  cases bound : row.get? update.var with
  | none =>
    simp only [bound] at refused
    cases refused
  | some target =>
    simp only [bound] at refused
    rw [RefusableAction.bind_get] at refused
    by_cases listed : x.deleted.contains target = true
    · rw [if_pos listed] at refused
      split at refused
      · cases refused
      · cases refused
        exact ⟨bound, List.contains_iff_mem.1 listed⟩
    · rw [if_neg listed] at refused
      have other := refusedFor_change (P := fun cause => cause ≠ .deletedEntity var e)
        (fun cause => by simp) (fun name => by simp) update.var target update.action
      exact (other x _ x' refused rfl).elim

/-- Where a list of updates is refused for a deleted entity, the entity is not live. -/
theorem not_live_of_deletedEntity {g : Graph} (reachable : g.Reachable) {row : BindingRow}
    {updates : List Update} {var : String} (refused :
      apply row updates ((start g).afterCalls calls) = (.error (.deletedEntity var e), x')) :
    row.get? var = some e ∧ x'.graph.contains e = false := by
  obtain ⟨before, failing, _, -, ran, failed⟩ :=
    (apply_eq_error_iff (graph_reachable_afterCalls reachable calls)).1 refused
  obtain ⟨bound, listed⟩ := of_applyOne_deletedEntity failed
  -- the state of the refusal is the one that the updates before the refused one lead to
  have reached : (start g).afterCalls (calls ++ [.apply row before]) = x' := by
    rw [afterCalls, List.foldl_append]
    exact congrArg Prod.snd ran
  rw [← reached] at listed ⊢
  exact ⟨bound, ((mem_deleted_iff reachable).1 listed).2⟩

/-- A list of updates that begins with one of a listed entity ends there. -/
theorem apply_cons_of_listed {row : BindingRow} {var : String} {action : UpdateAction}
    (bound : row.get? var = some e) (listed : e ∈ x.deleted) (other : action ≠ .delete)
    (rest : List Update) :
    apply row (⟨var, action⟩ :: rest) x = (.error (.deletedEntity var e), x) := by
  have first := apply_of_listed bound listed action
  rw [if_neg other] at first
  have both := apply_append x row [⟨var, action⟩] rest
  rw [first] at both
  exact both

/-- The list of deleted entities holds exactly the entities that the calls have removed,
with the relationships that went with a node, and that are not live now. A live entity is
never taken for a deleted one: deleting it, by itself or through a row, does take it away,
and a list of updates is refused for a deleted entity only where the row is bound to it
and it is not live. Any update but deleting is refused for an entity that was removed and
not created again, and changes nothing. -/
theorem deleted_exact {g : Graph} (reachable : g.Reachable) (calls : List Call) :
    let x := (start g).afterCalls calls
    (∀ e, e ∈ x.deleted ↔ Removed (start g) calls e ∧ x.graph.contains e = false) ∧
      (∀ e, x.graph.contains e = true →
        (∃ x', delete e x = (.ok (), x') ∧ x'.graph.contains e = false) ∧
          ∀ (row : BindingRow) var, row.get? var = some e →
            ∃ x', apply row [⟨var, .delete⟩] x = (.ok (), x') ∧ x'.graph.contains e = false) ∧
      (∀ row updates var e x', apply row updates x = (.error (.deletedEntity var e), x') →
        row.get? var = some e ∧ x'.graph.contains e = false) ∧
      ∀ e (row : BindingRow) var action rest, Removed (start g) calls e →
        x.graph.contains e = false → row.get? var = some e → action ≠ .delete →
          apply row (⟨var, action⟩ :: rest) x = (.error (.deletedEntity var e), x) := by
  intro x
  have here : x.graph.Reachable := graph_reachable_afterCalls reachable calls
  refine ⟨fun e => mem_deleted_iff reachable, fun e live => ?_,
    fun row updates var e x' refused => not_live_of_deletedEntity reachable refused,
    fun e row var action rest removed gone bound other =>
      apply_cons_of_listed bound ((mem_deleted_iff reachable).2 ⟨removed, gone⟩) other rest⟩
  have unlisted : e ∉ x.deleted := fun listed => by
    cases live.symm.trans ((mem_deleted_iff reachable).1 listed).2
  refine ⟨?_, fun row var bound => ?_⟩
  · rw [delete_of_unlisted unlisted]
    exact remove_of_live here live
  · rw [apply_of_unlisted bound unlisted]
    exact remove_of_live here live

/-- A node was deleted with its relationship, in a list of updates that failed, and a new
node got its number, which is the number of the relationship too. Only the relationship is
listed. -/
theorem deleted_exact_after_recycling :
    let g := (Graph.empty ⟨false, true⟩).afterAll [.createNode ["A"] [], .createNode [] [],
      .createRelationship "knows" ⟨1⟩ ⟨2⟩ []]
    let row : BindingRow := ⟨[("a", .node ⟨1⟩), ("b", .node ⟨2⟩), ("r", .relationship ⟨1⟩)]⟩
    let deleting : Call := .apply row [⟨"a", .delete⟩, ⟨"r", .removeProperty "k"⟩]
    let calls : List Call := [deleting, .create ⟨[⟨some "c", ["C"], []⟩], [], [.node 0]⟩ .empty]
    let x := (start g).afterCalls calls
    let updates : List Update := [⟨"b", .addLabel "B"⟩, ⟨"r", .addLabel "R"⟩]
    let refusal : ExecutionError := .deletedEntity "r" (.relationship ⟨1⟩)
    g.Reachable ∧ Removed (start g) calls (.node ⟨1⟩) ∧ x.graph.contains (.node ⟨1⟩) = true ∧
      (.node ⟨1⟩ : EntityRef) ∉ x.deleted ∧
      (∃ x', apply row [⟨"a", .delete⟩] x = (.ok (), x') ∧
        x'.graph.contains (.node ⟨1⟩) = false) ∧
      Removed (start g) calls (.relationship ⟨1⟩) ∧
      x.graph.contains (.relationship ⟨1⟩) = false ∧
      (.relationship ⟨1⟩ : EntityRef) ∈ x.deleted ∧
      (apply row updates x).1 = .error refusal ∧
      (apply row updates x).2.graph.contains (.relationship ⟨1⟩) = false ∧
      apply row [⟨"r", .setProperty "since" (.int 1)⟩, ⟨"b", .delete⟩] x =
        (.error refusal, x) := by
  intro g row deleting calls x updates refusal
  have reachable : g.Reachable := (Graph.Reachable.empty _).afterAll _
  obtain ⟨listed_iff, live_removed, refused_dead, gone_refused⟩ := deleted_exact reachable calls
  have node : Removed (start g) calls (.node ⟨1⟩) :=
    ⟨[], deleting, _, rfl, by decide, by decide +kernel⟩
  have rel : Removed (start g) calls (.relationship ⟨1⟩) :=
    ⟨[], deleting, _, rfl, by decide, by decide +kernel⟩
  have back : x.graph.contains (.node ⟨1⟩) = true := by decide +kernel
  have gone : x.graph.contains (.relationship ⟨1⟩) = false := by decide +kernel
  have refused : (apply row updates x).1 = .error refusal := by decide +kernel
  refine ⟨reachable, node, back, fun listed => ?_, (live_removed _ back).2 row "a" rfl, rel, gone,
    (listed_iff _).2 ⟨rel, gone⟩, refused, ?_, gone_refused _ row "r" _ _ rel gone rfl (by decide)⟩
  · cases back.symm.trans ((listed_iff _).1 listed).2
  · refine (refused_dead row updates "r" (.relationship ⟨1⟩) _ ?_).2
    rw [← refused]
    exact (Prod.eta _).symm

end Execution

end PropertyGraph
