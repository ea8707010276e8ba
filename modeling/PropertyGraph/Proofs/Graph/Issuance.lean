import PropertyGraph.Proofs.Graph.Retirement
import PropertyGraph.Proofs.Graph.Twins

/-!
# Identities handed out

An operation that creates an entity takes the next number of the entity's kind, and
no other operation takes one. So the numbers handed out are those below the next
fresh one. A graph that recycles has each of them live or waiting, which says of a
number that is freed twice, or while it is live, that there is none; a graph that
does not recycle hands them out in ascending order.
-/

namespace PropertyGraph

open Std

/-! ## Taking a number -/

/-- A number waited, and the latest one was taken, or none did, and a fresh one was. -/
theorem IdSupply.take_cases (s : IdSupply) :
    (∃ number rest, s.returned = number :: rest ∧
      s.take = (number, { s with returned := rest })) ∨
    s.returned = [] ∧ s.take = (s.fresh, { s with fresh := s.fresh + 1 }) := by
  cases s with
  | mk fresh returned => cases returned with
    | nil => exact .inr ⟨rfl, rfl⟩
    | cons number rest => exact .inl ⟨number, rest, rfl, rfl⟩

/-- An entity is known by its kind and its number. -/
theorem EntityRef.eq_of_number {e other : EntityRef} (kind : other.kind = e.kind)
    (number : other.number = e.number) : other = e := by
  cases e with
  | node id =>
    cases other with
    | node id' => exact congrArg (fun n => EntityRef.node ⟨n⟩) number
    | relationship id' => cases kind
  | relationship id =>
    cases other with
    | node id' => cases kind
    | relationship id' => exact congrArg (fun n => EntityRef.relationship ⟨n⟩) number

namespace Graph

variable {g g' : Graph} {e : EntityRef}

theorem supply_of_kind (g : Graph) {other : EntityRef} (kind : other.kind = e.kind) :
    g.supply other = g.supply e := by
  cases e <;> cases other <;> first | rfl | cases kind

theorem fresh_giveBack (g : Graph) (s : IdSupply) (number : Nat) :
    (g.giveBack s number).fresh = s.fresh := by
  unfold giveBack
  split <;> rfl

theorem Removes.fresh (removed : g.Removes e g') (other : EntityRef) :
    (g'.supply other).fresh = (g.supply other).fresh := by
  rw [removed.supply]
  split
  · exact fresh_giveBack _ _ _
  · rfl

/-- An entity that is brought leaves the supply of the other kind alone. From that of
its own kind it takes the latest number that waits, or a fresh one if none does. -/
theorem Brings.supply_cases (brought : g.Brings e g') (other : EntityRef) :
    other.kind ≠ e.kind ∧ g'.supply other = g.supply other ∨
    other.kind = e.kind ∧
      ((g.supply other).returned = e.number :: (g'.supply other).returned ∧
        (g'.supply other).fresh = (g.supply other).fresh ∨
      (g.supply other).returned = [] ∧ (g'.supply other).returned = [] ∧
        e.number = (g.supply other).fresh ∧
        (g'.supply other).fresh = (g.supply other).fresh + 1) := by
  rw [brought.supply, brought.number]
  by_cases kind : other.kind = e.kind
  · rw [if_pos kind, supply_of_kind g kind]
    refine .inr ⟨kind, ?_⟩
    rcases (g.supply e).take_cases with ⟨number, rest, waiting, took⟩ | ⟨none, took⟩
    · rw [took]
      exact .inl ⟨waiting, rfl⟩
    · rw [took]
      exact .inr ⟨none, none, rfl, rfl⟩
  · exact .inl ⟨kind, if_neg kind⟩

/-! ## The supplies of stored entities -/

namespace Stored

theorem below (stored : g.Stored) (live : g.contains e = true) :
    e.number < (g.supply e).fresh := by
  cases e with
  | node id => exact stored.nodeIds.below _ live
  | relationship id => exact stored.relIds.below _ live

theorem returned_below (stored : g.Stored) {number : Nat}
    (waits : number ∈ (g.supply e).returned) : number < (g.supply e).fresh := by
  cases e with
  | node id => exact stored.nodeIds.returnedBelow _ waits
  | relationship id => exact stored.relIds.returnedBelow _ waits

/-- A number that waits to be handed out again is not that of a live entity. -/
theorem dead_of_returned (stored : g.Stored) (waits : e.number ∈ (g.supply e).returned) :
    g.contains e = false := by
  refine Bool.eq_false_iff.2 fun live => ?_
  cases e with
  | node id => exact stored.nodeIds.returnedFree _ waits live
  | relationship id => exact stored.relIds.returnedFree _ waits live

theorem returned_nodup (stored : g.Stored) (e : EntityRef) : (g.supply e).returned.Nodup := by
  cases e with
  | node id => exact stored.nodeIds.nodup
  | relationship id => exact stored.relIds.nodup

/-- The entity that is brought was not live. -/
theorem brings_free (stored : g.Stored) (brought : g.Brings e g') : g.contains e = false := by
  rcases brought.supply_cases e with ⟨apart, -⟩ | ⟨-, ⟨waiting, -⟩ | ⟨-, -, number, -⟩⟩
  · exact (apart rfl).elim
  · exact stored.dead_of_returned (waiting ▸ List.mem_cons_self)
  · refine Bool.eq_false_iff.2 fun live => ?_
    exact Nat.ne_of_lt (stored.below live) number

/-- A write after which nothing is live that was not takes no fresh number. -/
theorem fresh_of_no_new (stored : g.Stored) (step : Write g g')
    (fewer : ∀ e, g'.contains e = true → g.contains e = true) (e : EntityRef) :
    (g'.supply e).fresh = (g.supply e).fresh := by
  cases step.turnover with
  | keeps _ supply => rw [supply]
  | @brings new brought =>
    have live := fewer new ((brought.live new).2 (.inl rfl))
    rw [stored.brings_free brought] at live
    cases live
  | removes removed => exact removed.fresh e

end Stored

/-! ## Numbers accounted for -/

/-- Numbers are handed out from 1 on, and with recycling each number handed out is
that of a live entity or waits to be handed out again. -/
structure Numbered (g : Graph) : Prop where
  fresh : ∀ e, 0 < (g.supply e).fresh
  live : ∀ e, g.contains e = true → 0 < e.number
  returned : ∀ e, ∀ number ∈ (g.supply e).returned, 0 < number
  spent : g.config.recycleIds = true → ∀ e, 0 < e.number → e.number < (g.supply e).fresh →
    g.contains e = true ∨ e.number ∈ (g.supply e).returned

theorem Numbered.empty (config : GraphConfig) : (Graph.empty config).Numbered where
  fresh e := by cases e <;> exact Nat.one_pos
  live e live := by cases e <;> cases live
  returned e number waits := by cases e <;> cases waits
  spent _ e positive below := by cases e <;> exact absurd below (Nat.not_lt.2 positive)

/-- A new entity has the number that its supply handed out, which was given to no other.
-/
theorem Numbered.brings (numbered : g.Numbered) (brought : g.Brings e g')
    (config : g'.config = g.config) : g'.Numbered := by
  refine ⟨fun other => ?_, fun other live => ?_, fun other number waits => ?_,
    fun recycles other positive below => ?_⟩
  · have before := numbered.fresh other
    rcases brought.supply_cases other with ⟨-, same⟩ | ⟨-, ⟨-, fresh⟩ | ⟨-, -, -, fresh⟩⟩
    · rwa [same]
    · rwa [fresh]
    · omega
  · rcases (brought.live other).1 live with rfl | live
    · rcases brought.supply_cases other with ⟨apart, -⟩ | ⟨-, ⟨waiting, -⟩ | ⟨-, -, number, -⟩⟩
      · exact (apart rfl).elim
      · exact numbered.returned other _ (waiting ▸ List.mem_cons_self)
      · exact number ▸ numbered.fresh other
    · exact numbered.live other live
  · rcases brought.supply_cases other with ⟨-, same⟩ | ⟨-, ⟨waiting, -⟩ | ⟨-, none, -, -⟩⟩
    · exact numbered.returned other number (same ▸ waits)
    · exact numbered.returned other number (waiting ▸ List.mem_cons_of_mem _ waits)
    · rw [none] at waits
      cases waits
  · rw [config] at recycles
    have before := numbered.spent recycles other positive
    rw [brought.live]
    rcases brought.supply_cases other with
      ⟨-, same⟩ | ⟨kind, ⟨waiting, fresh⟩ | ⟨none, -, number, fresh⟩⟩
    · rw [same] at below ⊢
      exact (before below).imp_left .inr
    · -- The number taken is that of the entity, and the others that waited still do.
      rw [fresh] at below
      rw [waiting, List.mem_cons] at before
      rcases before below with live | same | waits
      · exact .inl (.inr live)
      · exact .inl (.inl (EntityRef.eq_of_number kind same))
      · exact .inr waits
    · rw [fresh] at below
      rcases Nat.lt_succ_iff_lt_or_eq.1 below with below | same
      · refine (before below).imp .inr fun waits => ?_
        rw [none] at waits
        cases waits
      · exact .inl (.inl (EntityRef.eq_of_number kind (same.trans number.symm)))

/-- The number of an entity that is gone waits to be handed out again, if the graph
recycles. -/
theorem Numbered.removes (numbered : g.Numbered) (removed : g.Removes e g')
    (config : g'.config = g.config) : g'.Numbered := by
  refine ⟨fun other => ?_, fun other live => ?_, fun other number waits => ?_,
    fun recycles other positive below => ?_⟩
  · rw [removed.fresh]
    exact numbered.fresh other
  · exact numbered.live other ((removed.live other).1 live).2
  · rw [removed.supply] at waits
    split at waits
    · unfold giveBack at waits
      split at waits
      · rcases List.mem_cons.1 waits with rfl | waits
        · exact numbered.live e removed.found
        · exact numbered.returned other number waits
      · exact numbered.returned other number waits
    · exact numbered.returned other number waits
  · rw [config] at recycles
    rw [removed.fresh] at below
    rw [removed.live, removed.supply, giveBack, if_pos recycles]
    rcases numbered.spent recycles other positive below with live | waits
    · by_cases same : other = e
      · subst same
        rw [if_pos rfl]
        exact .inr List.mem_cons_self
      · exact .inl ⟨same, live⟩
    · refine .inr ?_
      split
      · exact List.mem_cons_of_mem _ waits
      · exact waits

theorem Numbered.write (numbered : g.Numbered) (step : Write g g') : g'.Numbered := by
  have config := config_write step
  cases step.turnover with
  | keeps same supply =>
    refine ⟨fun e => ?_, fun e live => numbered.live e (live_of_sameLive live same),
      fun e => ?_, fun recycles e => ?_⟩
    · rw [supply]
      exact numbered.fresh e
    · rw [supply]
      exact numbered.returned e
    · rw [supply, same e]
      rw [config] at recycles
      exact numbered.spent recycles e
  | brings brought => exact numbered.brings brought config
  | removes removed => exact numbered.removes removed config

theorem Reachable.numbered (reachable : g.Reachable) : g.Numbered :=
  reachable.of_writes .empty .write

/-! ## Entities that operations create -/

/-- The entity that an operation creates, which its reply names. -/
def created? (g : Graph) (operation : Operation) : Option EntityRef :=
  match g.reply operation with
  | .ok (.node id) => some (.node id)
  | .ok (.relationship id) => some (.relationship id)
  | _ => none

/-- The entities that operations create one after the other. -/
def created (g : Graph) : List Operation → List EntityRef
  | [] => []
  | operation :: rest => (g.created? operation).toList ++ (g.after operation).created rest

/-- The operations that create an entity store it under the identity handed out next. -/
theorem created?_cases {operation : Operation} (made : g.created? operation = some e) :
    (∃ labels properties, operation = .createNode labels properties ∧
      e = .node g.takeNodeId.1) ∨
    ∃ type source target properties,
      operation = .createRelationship type source target properties ∧
      e = .relationship g.takeRelId.1 ∧
      g.after operation = g.takeRelId.2.storeRelationship
        (.create g.takeRelId.1 type source target properties) := by
  have none : ∀ {α : Type} {reply : Except GraphError α} {f : α → Reply},
      (∀ a id, f a ≠ .node id) → (∀ a id, f a ≠ .relationship id) →
      g.reply operation = reply.map f → False := by
    intro α reply f node relationship replied
    rw [created?, replied] at made
    cases reply with
    | error _ => cases made
    | ok a =>
      simp only [Except.map] at made
      split at made
      · rename_i same
        exact node a _ (Except.ok.inj same)
      · rename_i same
        exact relationship a _ (Except.ok.inj same)
      · cases made
  cases operation with
  | createNode labels properties =>
    cases made
    exact .inl ⟨labels, properties, rfl, rfl⟩
  | createRelationship type source target properties =>
    rw [created?, reply] at made
    rcases createRelationship_stores type source target properties g with ⟨_, refused⟩ | ⟨-, ok⟩
    · rw [refused] at made
      cases made
    · rw [ok] at made
      cases made
      exact .inr ⟨type, source, target, properties, rfl, rfl, congrArg Prod.snd ok⟩
  | addLabel id label => exact (none nofun nofun rfl).elim
  | removeLabel id label => exact (none nofun nofun rfl).elim
  | setProperty target key value => exact (none nofun nofun rfl).elim
  | deleteNode id => exact (none nofun nofun rfl).elim
  | deleteRelationship id => exact (none nofun nofun rfl).elim
  | createIndex name => exact (none nofun nofun rfl).elim
  | dropIndex name => exact (none nofun nofun rfl).elim

theorem brings_of_created? {operation : Operation} (made : g.created? operation = some e) :
    g.Brings e (g.after operation) := by
  rcases created?_cases made with
    ⟨labels, properties, rfl, rfl⟩ | ⟨type, source, target, properties, -, rfl, stored⟩
  · exact g.brings_createNode labels properties
  · rw [stored]
    exact g.brings_storeRelationship type source target properties

/-- Deleting a node removes entities one after the other. -/
theorem removes_deleteNode (g : Graph) (id : NodeId) :
    Relation.ReflTransGen (fun g g' => ∃ e, g.Removes e g') g (deleteNode id g).2 :=
  along_deleteNode (fun found => ⟨_, removes_strikeRelationship found⟩)
    (fun found => ⟨_, removes_strikeNode found⟩) id g

theorem live_of_live_deleteNode {id : NodeId} (live : (deleteNode id g).2.contains e = true) :
    g.contains e = true := by
  have walked := g.removes_deleteNode id
  generalize (deleteNode id g).2 = g' at walked live
  induction walked with
  | refl => exact live
  | tail _ step ih =>
    obtain ⟨_, removed⟩ := step
    exact ih ((removed.live e).1 live).2

theorem fresh_deleteNode (g : Graph) (id : NodeId) (e : EntityRef) :
    ((deleteNode id g).2.supply e).fresh = (g.supply e).fresh := by
  have walked := g.removes_deleteNode id
  generalize (deleteNode id g).2 = g' at walked
  induction walked with
  | refl => rfl
  | tail _ step ih =>
    obtain ⟨_, removed⟩ := step
    exact (removed.fresh e).trans ih

/-- After an operation that creates no entity nothing is live that was not before. -/
theorem live_of_live_after {operation : Operation} (made : g.created? operation = none)
    (live : (g.after operation).contains e = true) : g.contains e = true := by
  cases operation with
  | createNode labels properties => cases made
  | addLabel id label => exact live_of_sameLive live (sameLive_addLabel id label g)
  | removeLabel id label => exact live_of_sameLive live (sameLive_removeLabel id label g)
  | setProperty target key value =>
    exact live_of_sameLive live (sameLive_setProperty target key value g)
  | deleteNode id => exact live_of_live_deleteNode live
  | createRelationship type source target properties =>
    rcases createRelationship_stores type source target properties g with ⟨_, refused⟩ | ⟨-, ok⟩
    · rwa [after, refused] at live
    · rw [created?, reply, ok] at made
      cases made
  | deleteRelationship id =>
    rw [after] at live
    rcases deleteRelationship_outcome id g with ⟨_, refused⟩ | ⟨g', deleted, -, left⟩
    · rwa [refused] at live
    · rw [deleted] at live
      exact ((left e).1 live).2
  | createIndex name =>
    rw [after, createIndex] at live
    split at live <;> exact live
  | dropIndex name =>
    rw [after, dropIndex] at live
    split at live <;> exact live

/-- An operation that creates no entity takes no fresh number. -/
theorem Stored.fresh_after (stored : g.Stored) {operation : Operation}
    (made : g.created? operation = none) (e : EntityRef) :
    ((g.after operation).supply e).fresh = (g.supply e).fresh := by
  rcases g.after_cases operation with ⟨id, rfl⟩ | same | step
  · exact g.fresh_deleteNode id e
  · rw [same]
  · exact stored.fresh_of_no_new step.write (fun _ => live_of_live_after made) e

/-! ## Runs -/

/-- The list is that of the entities created so far: their numbers are those handed
out, and without recycling they ascend. -/
structure Issuance (g : Graph) (made : List EntityRef) : Prop where
  mem : ∀ e, e ∈ made ↔ 0 < e.number ∧ e.number < (g.supply e).fresh
  count : ∀ e, (g.supply e).fresh ≤ (made.countP fun other => other.kind = e.kind) + 1
  rising : g.config.recycleIds = false →
    made.Pairwise fun a b => a.kind = b.kind → a.number < b.number

variable {made : List EntityRef}

theorem Issuance.empty (config : GraphConfig) : (Graph.empty config).Issuance [] where
  mem e := by
    refine ⟨fun mem => (List.not_mem_nil mem).elim, fun ⟨positive, below⟩ => ?_⟩
    cases e <;> exact absurd below (Nat.not_lt.2 positive)
  count e := by cases e <;> exact Nat.le_refl 1
  rising _ := .nil

/-- A number that waited is that of an entity which was created before, and a fresh
one is above those of all entities of its kind created before. -/
theorem Issuance.brings (issuance : g.Issuance made) (reachable : g.Reachable)
    (brought : g.Brings e g') (config : g'.config = g.config) :
    g'.Issuance (made ++ [e]) := by
  have known : ∀ rest, (g.supply e).returned = e.number :: rest → e ∈ made := by
    intro rest waiting
    have waits : e.number ∈ (g.supply e).returned := waiting ▸ List.mem_cons_self
    exact (issuance.mem e).2
      ⟨reachable.numbered.returned e _ waits, reachable.coherent.stored.returned_below waits⟩
  refine ⟨fun other => ?_, fun other => ?_, fun once => ?_⟩
  · rw [List.mem_append, List.mem_singleton, issuance.mem]
    rcases brought.supply_cases other with
      ⟨apart, same⟩ | ⟨kind, ⟨waiting, fresh⟩ | ⟨-, -, number, fresh⟩⟩
    · rw [same, or_iff_left fun same => apart (congrArg _ same)]
    · rw [supply_of_kind g kind] at waiting
      rw [fresh, ← issuance.mem, or_iff_left_of_imp fun same => same ▸ known _ waiting]
    · have same : other = e ↔ other.number = (g.supply other).fresh := by
        rw [← number]
        exact ⟨congrArg _, EntityRef.eq_of_number kind⟩
      have positive := reachable.numbered.fresh other
      rw [same, fresh]
      omega
  · have before := issuance.count other
    rw [List.countP_append, List.countP_singleton]
    rcases brought.supply_cases other with ⟨-, same⟩ | ⟨kind, ⟨-, fresh⟩ | ⟨-, -, -, fresh⟩⟩
    · rw [same]
      omega
    · omega
    · rw [if_pos (decide_eq_true kind.symm)]
      omega
  · rw [config] at once
    refine List.pairwise_append.2 ⟨issuance.rising once, List.pairwise_singleton _ _, ?_⟩
    intro other mem last same kind
    rw [List.mem_singleton.1 same] at kind ⊢
    rcases brought.supply_cases other with ⟨apart, -⟩ | ⟨-, ⟨waiting, -⟩ | ⟨-, -, number, -⟩⟩
    · exact (apart kind).elim
    · rw [reachable.returned_eq_nil once other] at waiting
      cases waiting
    · rw [number]
      exact ((issuance.mem other).1 mem).2

theorem Issuance.after (issuance : g.Issuance made) (reachable : g.Reachable)
    (operation : Operation) :
    (g.after operation).Issuance (made ++ (g.created? operation).toList) := by
  have config := config_writes (writes_after g operation)
  cases new : g.created? operation with
  | none =>
    have fresh := reachable.coherent.stored.fresh_after new
    rw [Option.toList_none, List.append_nil]
    refine ⟨fun e => ?_, fun e => ?_, fun once => issuance.rising (config ▸ once)⟩
    · rw [fresh]
      exact issuance.mem e
    · rw [fresh]
      exact issuance.count e
  | some e => exact issuance.brings reachable (brings_of_created? new) config

theorem Issuance.afterAll (issuance : g.Issuance made) (reachable : g.Reachable)
    (operations : List Operation) :
    (g.afterAll operations).Issuance (made ++ g.created operations) := by
  induction operations generalizing g made with
  | nil =>
    rw [created, List.append_nil]
    exact issuance
  | cons operation rest ih =>
    rw [created, ← List.append_assoc]
    exact ih (issuance.after reachable operation) (reachable.after operation)

theorem config_afterAll (g : Graph) (operations : List Operation) :
    (g.afterAll operations).config = g.config := by
  induction operations generalizing g with
  | nil => rfl
  | cons operation rest ih => exact (ih _).trans (config_writes (writes_after g operation))

/-! ## No collisions -/

/-- What creating an entity does: it was not live, it is now, and whatever was stored
is stored as before. -/
structure Adds (g : Graph) (e : EntityRef) (g' : Graph) : Prop where
  free : g.contains e = false
  live : g'.contains e = true
  nodes : ∀ id node, g.node? id = some node → g'.node? id = some node
  relationships : ∀ id rel, g.relationship? id = some rel → g'.relationship? id = some rel

theorem Stored.adds (stored : g.Stored) {operation : Operation}
    (made : g.created? operation = some e) : g.Adds e (g.after operation) := by
  have brought := brings_of_created? made
  have free := stored.brings_free brought
  have live := (brought.live e).2 (.inl rfl)
  rcases created?_cases made with
    ⟨labels, properties, rfl, rfl⟩ | ⟨type, source, target, properties, -, rfl, after⟩
  · exact ⟨free, live, fun _ _ => stored.kept_createNode, fun _ _ found => found⟩
  · rw [after] at live ⊢
    let new := Relationship.create g.takeRelId.1 type source target properties
    have unused : g.takeRelId.2.relationship? new.id = none := stored.takeRelId_free
    exact ⟨free, live, fun _ _ found => found, fun _ _ => kept_storeRelationship unused⟩

/-- After any run, an entity that is created was not live and leaves all that is stored
as it is, and what is stored is stored under its own identity. Without recycling no
identity is handed out twice, and those of a kind ascend. With recycling those handed
out and not live are exactly those that wait to be handed out again, each once. As long
as fewer than 2⁶⁴ - 1 entities of a kind were created, the next number fits a word. -/
theorem identities_never_collide (config : GraphConfig) (operations : List Operation) :
    let g := (Graph.empty config).afterAll operations
    let made := (Graph.empty config).created operations
    (∀ operation e, g.created? operation = some e → g.Adds e (g.after operation)) ∧
    (∀ id node, g.node? id = some node → node.id = id) ∧
    (∀ id rel, g.relationship? id = some rel → rel.id = id) ∧
    (∀ e, g.contains e = true → e ∈ made) ∧
    (config.recycleIds = false →
      made.Nodup ∧ made.Pairwise fun a b => a.kind = b.kind → a.number < b.number) ∧
    (config.recycleIds = true →
      (∀ e, e.number ∈ (g.supply e).returned ↔ e ∈ made ∧ g.contains e = false) ∧
      (∀ e, (g.supply e).returned.Nodup) ∧
      ∀ e ∈ made, g.contains e = true ∨ e.number ∈ (g.supply e).returned) ∧
    ∀ e, (made.countP fun other => other.kind = e.kind) < UInt64.size - 1 →
      (g.supply e).fresh < UInt64.size := by
  intro g made
  have start := Reachable.empty config
  have reachable : g.Reachable := start.afterAll operations
  have stored := reachable.coherent.stored
  have numbered := reachable.numbered
  have issuance : g.Issuance made := (Issuance.empty config).afterAll start operations
  have same : g.config = config := config_afterAll _ operations
  refine ⟨fun operation e => stored.adds, fun id node found => (stored.nodes id node found).own,
    fun id rel found => (stored.relationships id rel found).own, fun e live => ?_,
    fun once => ?_, fun recycles => ?_, fun e few => ?_⟩
  · exact (issuance.mem e).2 ⟨numbered.live e live, stored.below live⟩
  · have rising := issuance.rising (same ▸ once)
    refine ⟨rising.imp fun {a b} below equal => ?_, rising⟩
    subst equal
    exact Nat.lt_irrefl _ (below rfl)
  · have spent : ∀ e ∈ made, g.contains e = true ∨ e.number ∈ (g.supply e).returned := by
      intro e mem
      obtain ⟨positive, below⟩ := (issuance.mem e).1 mem
      exact numbered.spent (same ▸ recycles) e positive below
    refine ⟨fun e => ⟨fun waits => ⟨?_, stored.dead_of_returned waits⟩, fun ⟨mem, dead⟩ => ?_⟩,
      stored.returned_nodup, spent⟩
    · exact (issuance.mem e).2 ⟨numbered.returned e _ waits, stored.returned_below waits⟩
    · exact (spent e mem).resolve_left (Bool.eq_false_iff.1 dead)
  · have counted := issuance.count e
    omega

end Graph

end PropertyGraph
