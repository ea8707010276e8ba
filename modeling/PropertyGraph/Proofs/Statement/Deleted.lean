import PropertyGraph.Proofs.Graph.Retirement
import PropertyGraph.Proofs.Statement.Reachable

/-!
# Entities that a statement deleted

An execution keeps a list of the entities it deleted. Every call either takes a live
entity away and lists it, or leaves an entity there and unlisted, or changes neither:
creating and merging only bring entities, updating and deleting only take some away.
So the list never holds a live entity, and an entity that was live once is listed
exactly while it is not live. Only creation takes an identity off the list, which is
then that of another entity; without recycling this never happens.
-/

namespace PropertyGraph

namespace Execution

variable {x x' : Execution} {e : EntityRef}

/-! ## What a change does to an entity -/

/-- What becomes of an entity in a change. -/
inductive Fate (e : EntityRef) (x x' : Execution) : Prop
  | removed : x.graph.contains e = true → x'.graph.contains e = false → e ∈ x'.deleted →
    Fate e x x'
  | there : x'.graph.contains e = true → e ∉ x'.deleted → Fate e x x'
  | same : x'.graph.contains e = x.graph.contains e → (e ∈ x'.deleted ↔ e ∈ x.deleted) →
    Fate e x x'

/-- No listed entity is live, if none was. -/
theorem Fate.unlisted (fate : Fate e x x')
    (before : e ∈ x.deleted → x.graph.contains e = false) :
    e ∈ x'.deleted → x'.graph.contains e = false := by
  intro listed
  cases fate with
  | removed _ gone _ => exact gone
  | there _ unlisted => exact (unlisted listed).elim
  | same live kept =>
    rw [live]
    exact before (kept.1 listed)

/-- An entity is listed exactly if it is not live, if so it was. -/
theorem Fate.listed_iff (fate : Fate e x x')
    (before : e ∈ x.deleted ↔ x.graph.contains e = false) :
    e ∈ x'.deleted ↔ x'.graph.contains e = false := by
  cases fate with
  | removed _ gone listed => exact iff_of_true listed gone
  | there live unlisted => exact iff_of_false unlisted (by simp [live])
  | same live kept => rw [live, kept, before]

/-- These entities came to be there and are not listed; all others are as before. -/
structure Grown (new : List EntityRef) (x x' : Execution) : Prop where
  live : ∀ e, x'.graph.contains e = true ↔ e ∈ new ∨ x.graph.contains e = true
  deleted : ∀ e, e ∈ x'.deleted ↔ e ∉ new ∧ e ∈ x.deleted

/-- These entities, which were live, were taken away and are listed; all others are as
before. -/
structure Shrunk (gone : List EntityRef) (x x' : Execution) : Prop where
  were : ∀ e ∈ gone, x.graph.contains e = true
  live : ∀ e, x'.graph.contains e = true ↔ e ∉ gone ∧ x.graph.contains e = true
  deleted : ∀ e, e ∈ x'.deleted ↔ e ∈ gone ∨ e ∈ x.deleted

section Composition

variable {x'' : Execution} {new new' gone gone' : List EntityRef}

theorem Grown.refl (x : Execution) : Grown [] x x where
  live e := by simp
  deleted e := by simp

theorem Grown.trans (first : Grown new x x') (second : Grown new' x' x'') :
    Grown (new ++ new') x x'' where
  live e := by simp only [second.live, first.live, List.mem_append, or_assoc, or_left_comm]
  deleted e := by simp [second.deleted, first.deleted, and_assoc, and_left_comm]

theorem Grown.fate (grown : Grown new x x') (e : EntityRef) : Fate e x x' := by
  by_cases mem : e ∈ new
  · exact .there ((grown.live e).2 (.inl mem)) fun listed => ((grown.deleted e).1 listed).1 mem
  · refine .same ?_ ((grown.deleted e).trans (and_iff_right mem))
    rw [Bool.eq_iff_iff, grown.live]
    simp [mem]

/-- Where the same entities are live and listed, none was taken away. -/
theorem Shrunk.of_same (live : ∀ e, x'.graph.contains e = x.graph.contains e)
    (deleted : x'.deleted = x.deleted) : Shrunk [] x x' where
  were e mem := absurd mem List.not_mem_nil
  live e := by simp [live]
  deleted e := by simp [deleted]

theorem Shrunk.refl (x : Execution) : Shrunk [] x x := .of_same (fun _ => rfl) rfl

theorem Shrunk.trans (first : Shrunk gone x x') (second : Shrunk gone' x' x'') :
    Shrunk (gone ++ gone') x x'' where
  were e mem := by
    rcases List.mem_append.1 mem with early | late
    · exact first.were e early
    · exact ((first.live e).1 (second.were e late)).2
  live e := by simp [second.live, first.live, and_assoc, and_left_comm]
  deleted e := by simp only [second.deleted, first.deleted, List.mem_append, or_assoc, or_left_comm]

theorem Shrunk.fate (shrunk : Shrunk gone x x') (e : EntityRef) : Fate e x x' := by
  by_cases mem : e ∈ gone
  · refine .removed (shrunk.were e mem) ?_ ((shrunk.deleted e).2 (.inl mem))
    rw [← Bool.not_eq_true, shrunk.live]
    simp [mem]
  · refine .same ?_ (by simp [shrunk.deleted, mem])
    rw [Bool.eq_iff_iff, shrunk.live]
    simp [mem]

end Composition

/-! ## Single changes -/

theorem grown_createSlotNode (slot : NodeSlot) (x : Execution) :
    Grown [.node x.graph.takeNodeId.1] x (createSlotNode slot x).2 := by
  obtain ⟨id, graph⟩ := createSlotNode_spec slot x
  refine ⟨fun e => ?_, fun e => ?_⟩
  · rw [graph, List.mem_singleton]
    exact Graph.contains_createNode_iff
  · have noted : (createSlotNode slot x).2.deleted =
        x.deleted.filter fun removed => removed != .node x.graph.takeNodeId.1 := by
      obtain ⟨_, _, same⟩ := countLabels_frame slot.labels x
      have kept := congrArg Execution.deleted same
      dsimp only at kept
      rw [← id, ← kept]
      rfl
    simp [noted, and_comm]

theorem grown_createSlotRel (nodes : List NodeId) (slot : RelSlot) (x : Execution) :
    ∃ new, Grown new x (createSlotRel nodes slot x).2 := by
  unfold createSlotRel
  rcases Graph.createRelationship_outcome slot.type (nodes[slot.source]?.getD default)
      (nodes[slot.target]?.getD default) slot.literals x.graph with
    ⟨cause, refused⟩ | ⟨id, graph, made, live⟩
  · rw [RefusableAction.bind_of_error (onGraph_of_error refused)]
    exact ⟨[], .refl x⟩
  · rw [RefusableAction.bind_of_ok (onGraph_of_ok made)]
    refine ⟨[.relationship id], fun e => ?_, fun e => ?_⟩
    · rw [List.mem_singleton]
      exact live e
    · show e ∈ x.deleted.filter (fun removed => removed != .relationship id) ↔ _
      simp [and_comm]

theorem shrunk_setProperty (target : EntityRef) (key : String) (value : Value)
    (x : Execution) : Shrunk [] x (setProperty target key value x).2 := by
  have same := Graph.sameLive_setProperty target key value x.graph
  exact of_onGraph_bind (.of_same same rfl) fun _ => .of_same same rfl

theorem shrunk_addLabel (var : String) (target : EntityRef) (label : String)
    (x : Execution) : Shrunk [] x (addLabel var target label x).2 := by
  cases target with
  | relationship _ => exact .refl x
  | node id =>
    have same := Graph.sameLive_addLabel id label x.graph
    dsimp only [addLabel]
    rw [RefusableAction.bind_get]
    refine of_onGraph_bind (.of_same same rfl) fun attached => ?_
    cases attached with
    | false => exact .of_same same rfl
    | true =>
      let after : Execution := { x with graph := (Graph.addLabel id label x.graph).2 }
      obtain ⟨_, _, counted⟩ := countLabel_frame (x.graph.catalog.contains label) label after
      show Shrunk [] x (countLabel (x.graph.catalog.contains label) label after)
      rw [counted]
      exact .of_same same rfl

theorem shrunk_removeLabel (var : String) (target : EntityRef) (label : String)
    (x : Execution) : Shrunk [] x (removeLabel var target label x).2 := by
  cases target with
  | relationship _ => exact .refl x
  | node id =>
    have same := Graph.sameLive_removeLabel id label x.graph
    exact of_onGraph_bind (.of_same same rfl) fun _ => .of_same same rfl

/-- Removing an entity takes it away and, if it is a node, all that is attached to it, and
lists what it took. -/
theorem shrunk_remove (reachable : x.graph.Reachable) (target : EntityRef) :
    ∃ gone, Shrunk gone x (remove target x).2 := by
  cases target with
  | node id =>
    dsimp only [remove]
    rcases reachable.coherent.linked.deleteNode_outcome id with
      ⟨cause, refused⟩ | ⟨rels, graph, deleted, were, live⟩
    · rw [RefusableAction.bind_of_error (onGraph_of_error refused)]
      exact ⟨[], .refl x⟩
    · rw [RefusableAction.bind_of_ok (onGraph_of_ok deleted)]
      refine ⟨.node id :: rels.map .relationship, fun e mem => ?_, fun e => ?_, fun e => ?_⟩
      · exact were e (List.mem_cons.1 mem)
      · rw [List.mem_cons]
        exact live e
      · exact List.mem_append
  | relationship id =>
    dsimp only [remove]
    rcases Graph.deleteRelationship_outcome id x.graph with
      ⟨cause, refused⟩ | ⟨graph, deleted, was, live⟩
    · rw [RefusableAction.bind_of_error (onGraph_of_error refused)]
      exact ⟨[], .refl x⟩
    · rw [RefusableAction.bind_of_ok (onGraph_of_ok deleted)]
      refine ⟨[.relationship id], fun e mem => ?_, fun e => ?_, fun e => ?_⟩
      · rw [List.mem_singleton.1 mem]
        exact was
      · rw [List.mem_singleton]
        exact live e
      · exact List.mem_append

/-! ## Calls -/

/-- From a reachable graph the change leads to a reachable one, and every entity
meets one of the fates. -/
def Decides (x x' : Execution) : Prop :=
  x.graph.Reachable → x'.graph.Reachable ∧ ∀ e, Fate e x x'

/-- From a reachable graph the change leads to a reachable one, and this is what it does
to some of the entities. -/
def Makes (does : List EntityRef → Execution → Execution → Prop) (x x' : Execution) : Prop :=
  x.graph.Reachable → x'.graph.Reachable ∧ ∃ entities, does entities x x'

theorem grown_createsAlong : CreatesAlong (Makes Grown) where
  createSlotNode slot x := .single fun reachable =>
    ⟨graph_reachable_of_operates reachable (operates_createSlotNode slot x), _,
      grown_createSlotNode slot x⟩
  createSlotRel nodes slot x := .single fun reachable =>
    ⟨graph_reachable_of_operates reachable (operating_createSlotRel nodes slot x),
      grown_createSlotRel nodes slot x⟩

theorem shrunk_updatesAlong : UpdatesAlong (Makes Shrunk) where
  setProperty target key value x := .single fun reachable =>
    ⟨graph_reachable_of_operates reachable (operating_setProperty target key value x), _,
      shrunk_setProperty target key value x⟩
  addLabel var target label x := .single fun reachable =>
    ⟨graph_reachable_of_operates reachable (operating_addLabel var target label x), _,
      shrunk_addLabel var target label x⟩
  removeLabel var target label x := .single fun reachable =>
    ⟨graph_reachable_of_operates reachable (operating_removeLabel var target label x), _,
      shrunk_removeLabel var target label x⟩
  remove target x := .single fun reachable =>
    ⟨graph_reachable_of_operates reachable (operating_remove target x),
      shrunk_remove reachable target⟩

/-- Where what changes do adds up and decides the fate of every entity, many such changes
decide it together. -/
theorem decides_of_makes {does : List EntityRef → Execution → Execution → Prop}
    (refl : ∀ x, does [] x x)
    (trans : ∀ {es es' x x' x''}, does es x x' → does es' x' x'' → does (es ++ es') x x'')
    (fate : ∀ {es x x'}, does es x x' → ∀ e, Fate e x x')
    (walked : Relation.ReflTransGen (Makes does) x x') : Decides x x' := by
  intro reachable
  have all : x'.graph.Reachable ∧ ∃ entities, does entities x x' := by
    induction walked with
    | refl => exact ⟨reachable, [], refl x⟩
    | tail _ step ih =>
      rcases ih with ⟨halfway, first, done⟩
      rcases step halfway with ⟨after, second, done'⟩
      exact ⟨after, first ++ second, trans done done'⟩
  rcases all with ⟨after, _, done⟩
  exact ⟨after, fate done⟩

/-- Two fates do not always make one: an entity that came and went again would be listed
without having been live before. But no call both brings entities and takes some away, so
every entity meets one of the fates in it. -/
theorem decides_afterCall (x : Execution) (call : Call) : Decides x (x.afterCall call) := by
  have growing : ∀ {x'}, Relation.ReflTransGen (Makes Grown) x x' → Decides x x' :=
    decides_of_makes Grown.refl Grown.trans Grown.fate
  have shrinking : ∀ {x'}, Relation.ReflTransGen (Makes Shrunk) x x' → Decides x x' :=
    decides_of_makes Shrunk.refl Shrunk.trans Shrunk.fate
  cases call with
  | merge p row => exact growing (grown_createsAlong.merge p row x)
  | create p row => exact growing (grown_createsAlong.create p row x)
  | pull stream => exact growing (grown_createsAlong.pull stream x)
  | apply row updates => exact shrinking (shrunk_updatesAlong.apply row updates x)
  | delete target => exact shrinking (shrunk_updatesAlong.delete target x)

/-- What each fate of an entity keeps, every run keeps. -/
theorem kept_afterCalls {P : Execution → Prop} (keeps : ∀ {x x'}, Fate e x x' → P x → P x')
    (reachable : x.graph.Reachable) (before : P x) (calls : List Call) :
    (x.afterCalls calls).graph.Reachable ∧ P (x.afterCalls calls) := by
  induction calls generalizing x with
  | nil => exact ⟨reachable, before⟩
  | cons call calls ih =>
    obtain ⟨halfway, fates⟩ := decides_afterCall x call reachable
    exact ih halfway (keeps (fates e) before)

/-! ## Updates of an entity that was deleted -/

theorem apply_of_listed {row : BindingRow} {var : String} (bound : row.get? var = some e)
    (listed : e ∈ x.deleted) (action : UpdateAction) :
    apply row [⟨var, action⟩] x =
      (if action = .delete then .ok () else .error (.deletedEntity var e), x) := by
  have contained : x.deleted.contains e = true := List.contains_iff_mem.2 listed
  have ran : applyOne row ⟨var, action⟩ x =
      (if action = .delete then .ok () else .error (.deletedEntity var e), x) := by
    unfold applyOne
    simp only [bound]
    rw [RefusableAction.bind_get, if_pos contained]
    split <;> rfl
  by_cases delete : action = .delete
  · rw [if_pos delete] at ran ⊢
    exact RefusableAction.bind_of_ok ran
  · rw [if_neg delete] at ran ⊢
    exact RefusableAction.bind_of_error ran

theorem apply_of_unlisted {row : BindingRow} {var : String} (bound : row.get? var = some e)
    (unlisted : e ∉ x.deleted) (action : UpdateAction) :
    apply row [⟨var, action⟩] x = change var e action x := by
  have missing : ¬x.deleted.contains e = true := fun listed =>
    unlisted (List.contains_iff_mem.1 listed)
  have ran : applyOne row ⟨var, action⟩ x = change var e action x := by
    unfold applyOne
    simp only [bound]
    rw [RefusableAction.bind_get, if_neg missing]
  rcases changed : change var e action x with ⟨cause | ⟨⟨⟩⟩, x'⟩
  · exact RefusableAction.bind_of_error (ran.trans changed)
  · exact RefusableAction.bind_of_ok (ran.trans changed)

theorem delete_of_listed (listed : e ∈ x.deleted) : delete e x = (.ok (), x) := by
  have contained : x.deleted.contains e = true := List.contains_iff_mem.2 listed
  rw [delete, RefusableAction.bind_get, if_pos contained]
  rfl

/-- An entity was live in a run and later it was not. From then on, whatever calls
follow, for as long as the entity is not live, deleting it again has no effect, by
itself or through a row, and any other update through a row bound to it fails and
changes nothing. It can be live again only if the graph recycles identities; then
an update through such a row is a change of the entity that has the identity now. -/
theorem deleted_until_recycled {g : Graph} (reachable : g.Reachable) (e : EntityRef)
    (earlier deleting later : List Call)
    (live : ((start g).afterCalls earlier).graph.contains e = true)
    (deleted : (((start g).afterCalls earlier).afterCalls deleting).graph.contains e = false) :
    let x := (((start g).afterCalls earlier).afterCalls deleting).afterCalls later
    (x.graph.contains e = false →
      delete e x = (.ok (), x) ∧
        ∀ (row : BindingRow) (var : String) (action : UpdateAction), row.get? var = some e →
          apply row [⟨var, action⟩] x =
            (if action = .delete then .ok () else .error (.deletedEntity var e), x)) ∧
      (x.graph.contains e = true →
        g.config.recycleIds = true ∧
          ∀ (row : BindingRow) (var : String) (action : UpdateAction), row.get? var = some e →
            apply row [⟨var, action⟩] x = change var e action x) := by
  intro x
  have none : e ∈ (start g).deleted → (start g).graph.contains e = false :=
    fun listed => absurd listed List.not_mem_nil
  obtain ⟨reachable₀, unlisted⟩ := kept_afterCalls (P := fun x => e ∈ x.deleted →
    x.graph.contains e = false) Fate.unlisted reachable none earlier
  have settled : e ∈ ((start g).afterCalls earlier).deleted ↔
      ((start g).afterCalls earlier).graph.contains e = false :=
    ⟨unlisted, fun gone => by rw [live] at gone; cases gone⟩
  obtain ⟨reachable₁, settled₁⟩ := kept_afterCalls (P := fun x => e ∈ x.deleted ↔
    x.graph.contains e = false) Fate.listed_iff reachable₀ settled deleting
  obtain ⟨_, settled₂⟩ := kept_afterCalls (P := fun x => e ∈ x.deleted ↔
    x.graph.contains e = false) Fate.listed_iff reachable₁ settled₁ later
  refine ⟨fun gone => ?_, fun back => ⟨?_, fun row var action bound => ?_⟩⟩
  · have listed := settled₂.2 gone
    exact ⟨delete_of_listed listed, fun row var action bound =>
      apply_of_listed bound listed action⟩
  · -- Without recycling the identity would be past, and the entity gone for good.
    by_contra recycles
    have first := writes_of_operates (operates_goesAlong.afterCalls (start g) earlier)
    have once : ((start g).afterCalls earlier).graph.config.recycleIds = false := by
      rw [Graph.config_writes first]
      exact Bool.eq_false_iff.2 recycles
    have issued := (reachable₀.issued once live).writes
      (writes_of_operates (operates_goesAlong.afterCalls _ deleting))
    have gone := issued.stays_dead deleted
      (writes_of_operates (operates_goesAlong.afterCalls _ later))
    cases back.symm.trans gone
  · refine apply_of_unlisted bound (fun listed => ?_) action
    rw [settled₂.1 listed] at back
    cases back

/-- A loop that went with its node counts as deleted: writing to it fails, deleting it
again does nothing, and a new loop does not bring it back. -/
theorem deleted_until_recycled_of_detached :
    let g := (Graph.empty .standard).afterAll [.createNode ["A"] [],
      .createRelationship "knows" ⟨1⟩ ⟨1⟩ []]
    let row : BindingRow := ⟨[("a", .node ⟨1⟩), ("r", .relationship ⟨1⟩)]⟩
    let loop : Pattern := ⟨[⟨some "b", ["B"], []⟩], [⟨none, "knows", 0, 0, []⟩],
      [.node 0, .rel 0]⟩
    let deleting : List Call := [.apply row [⟨"a", .delete⟩]]
    let x := ((start g).afterCalls deleting).afterCalls [.create loop .empty]
    g.Reachable ∧ (start g).graph.contains (.relationship ⟨1⟩) = true ∧
      ((start g).afterCalls deleting).graph.contains (.relationship ⟨1⟩) = false ∧
      x.graph.relationshipCount = 1 ∧
      apply row [⟨"r", .setProperty "since" (.int 1)⟩] x =
        (.error (.deletedEntity "r" (.relationship ⟨1⟩)), x) ∧
      apply row [⟨"r", .delete⟩] x = (.ok (), x) := by
  intro g row loop deleting x
  have reachable : g.Reachable := (Graph.Reachable.empty _).afterAll _
  have live : (start g).graph.contains (.relationship ⟨1⟩) = true := by decide
  have deleted : ((start g).afterCalls deleting).graph.contains (.relationship ⟨1⟩) = false := by
    decide +kernel
  have gone : x.graph.contains (.relationship ⟨1⟩) = false := by decide +kernel
  have kept := ((deleted_until_recycled reachable (.relationship ⟨1⟩) [] deleting
    [.create loop .empty] live deleted).1 gone).2
  exact ⟨reachable, live, deleted, by decide +kernel, kept row "r" _ rfl, kept row "r" _ rfl⟩

/-- With recycling a created node takes the identity of the deleted one, and an update
through a row bound to that one is neither ignored nor refused. -/
theorem deleted_entity_updated_after_recycling :
    let g := (Graph.empty ⟨false, true⟩).afterAll [.createNode ["A"] []]
    let row : BindingRow := ⟨[("a", .node ⟨1⟩)]⟩
    let x₁ := (start g).afterCalls [.apply row [⟨"a", .delete⟩]]
    let x₂ := x₁.afterCalls [.create ⟨[⟨some "b", ["B"], []⟩], [], [.node 0]⟩ .empty]
    g.Reachable ∧ row.get? "a" = some (.node ⟨1⟩) ∧
      (start g).graph.contains (.node ⟨1⟩) = true ∧ x₁.graph.contains (.node ⟨1⟩) = false ∧
      apply row [⟨"a", .setProperty "k" (.int 1)⟩] x₂ ≠
        (.error (.deletedEntity "a" (.node ⟨1⟩)), x₂) ∧
      apply row [⟨"a", .delete⟩] x₂ ≠ (.ok (), x₂) := by
  intro g row x₁ x₂
  have written : (apply row [⟨"a", .setProperty "k" (.int 1)⟩] x₂).2.stats.propertiesSet ≠
      x₂.stats.propertiesSet := by decide +kernel
  have deleted : (apply row [⟨"a", .delete⟩] x₂).2.stats.nodesDeleted ≠
      x₂.stats.nodesDeleted := by decide +kernel
  refine ⟨(Graph.Reachable.empty _).afterAll _, rfl, by decide, by decide +kernel,
    fun same => written ?_, fun same => deleted ?_⟩
  · rw [same]
  · rw [same]

end Execution

end PropertyGraph
