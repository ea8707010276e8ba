import PropertyGraph.Proofs.Pattern.Tidy
import PropertyGraph.Proofs.Statement.Create
import PropertyGraph.Proofs.Statement.Reachable
import Mathlib.Algebra.BigOperators.Group.List.Basic
import Mathlib.Algebra.Group.Nat.Defs
import Mathlib.Algebra.Group.Prod

/-!
# What steps add to the counters

Three of the counters only grow: the nodes created, the relationships created and
the properties written. What a step that answers adds to them can be read off what
it was asked: creating a pattern adds the slots it fills with new entities and
their literals, an update adds one write if it sets or removes a property, and
nothing else adds anything, whatever the graph holds.
-/

namespace PropertyGraph

/-- Whether the change writes a property. -/
def UpdateAction.isWrite : UpdateAction → Bool
  | .setProperty _ _ => true
  | .removeProperty _ => true
  | .addLabel _ => false
  | .removeLabel _ => false
  | .delete => false

/-- How many of the updates write a property. -/
def writes (updates : List Update) : Nat := updates.countP fun update => update.action.isWrite

/-- The node slots that a row leaves open: the anonymous ones and those whose
variable it does not bind. -/
def Pattern.openNodes (p : Pattern) (row : BindingRow) : List NodeSlot :=
  p.nodes.filter fun slot => (slot.bound? row).isNone

/-- The literals of the slots that are filled with new entities from a row. -/
def Pattern.newLiterals (p : Pattern) (row : BindingRow) : List (String × Value) :=
  (p.openNodes row).flatMap NodeSlot.literals ++ p.rels.flatMap RelSlot.literals

theorem Gathered.size_ofPairs {literals : List (String × Value)} (gathered : Gathered literals) :
    (Properties.ofPairs literals).size = literals.length :=
  Properties.size_ofPairs gathered.keys gathered.noNull

namespace Execution

variable {α : Type} {g : Graph} {p : Pattern} {row : BindingRow} {x x' : Execution}

/-- The nodes created, the relationships created and the properties written. -/
def tally (x : Execution) : Nat × Nat × Nat :=
  (x.stats.nodesCreated, x.stats.relationshipsCreated, x.stats.propertiesSet)

/-- Whenever the action answers, it has added the amount to the tally. -/
abbrev Tallies (amount : Nat × Nat × Nat) (action : Action α) : Prop :=
  RefusableAction.Adds tally amount action

/-- As many nodes and relationships each time, and some properties. -/
theorem sum_tallies {β : Type} (nodes rels : Nat) (properties : β → Nat) (items : List β) :
    (items.map fun item => ((nodes, rels, properties item) : Nat × Nat × Nat)).sum =
      (items.length * nodes, items.length * rels, (items.map properties).sum) := by
  induction items with
  | nil => simp [Prod.ext_iff]
  | cons item rest ih =>
    rw [List.map_cons, List.sum_cons, ih]
    simp [Nat.succ_mul, Nat.add_comm]

/-! ## Updates -/

theorem tallies_onGraph (action : Graph.Action α) : Tallies 0 (onGraph action) := by
  intro x a x' ran
  unfold onGraph at ran
  split at ran
  · cases ran
    rfl
  · cases ran

theorem tallies_setProperty (target : EntityRef) (key : String) (value : Value) :
    Tallies (0, 0, 1) (setProperty target key value) := by
  exact .after (tallies_onGraph _) fun _ => .modify fun _ => rfl

theorem tally_countLabel (known : Bool) (label : String) (x : Execution) :
    (x.countLabel known label).tally = x.tally := by
  obtain ⟨_, _, counted⟩ := countLabel_frame known label x
  rw [counted]
  rfl

theorem tallies_addLabel (var : String) (target : EntityRef) (label : String) :
    Tallies 0 (addLabel var target label) := by
  cases target with
  | relationship _ => exact .throw _ _
  | node id =>
    refine .after .get fun x => ?_
    refine .after (tallies_onGraph _) fun attached => ?_
    split
    · exact .modify fun x => tally_countLabel _ label x
    · exact .pure _

theorem tallies_removeLabel (var : String) (target : EntityRef) (label : String) :
    Tallies 0 (removeLabel var target label) := by
  cases target with
  | relationship _ => exact .throw _ _
  | node id =>
    exact .after (tallies_onGraph _) fun _ => .pure _

theorem tallies_remove (target : EntityRef) : Tallies 0 (remove target) := by
  have counted : ∀ (change : Statistics → Statistics) (entities : List EntityRef),
      (∀ s, (change s).nodesCreated = s.nodesCreated ∧
        (change s).relationshipsCreated = s.relationshipsCreated ∧
        (change s).propertiesSet = s.propertiesSet) →
      Tallies 0 (do count change; noteDeleted entities) := by
    intro change entities same
    refine .after (.modify fun x => ?_) fun _ => .modify fun x => rfl
    obtain ⟨nodes, rels, properties⟩ := same x.stats
    simp [tally, nodes, rels, properties]
  cases target with
  | node id =>
    exact .after (tallies_onGraph _) fun detached => counted _ _ fun _ => ⟨rfl, rfl, rfl⟩
  | relationship id =>
    exact .after (tallies_onGraph _) fun _ => counted _ _ fun _ => ⟨rfl, rfl, rfl⟩

/-- An update that is carried out adds a write exactly if it writes a property, and
one of an entity that was deleted is carried out only if it does not. -/
theorem tallies_applyOne (row : BindingRow) (update : Update) :
    Tallies (0, 0, update.action.isWrite.toNat) (applyOne row update) := by
  unfold applyOne
  split
  · exact .throw _ _
  · rename_i target _
    refine .after .get fun x => ?_
    split
    · split
      · rename_i deletes
        rw [deletes]
        exact .pure _
      · exact .throw _ _
    · obtain ⟨var, action⟩ := update
      cases action with
      | setProperty key value => exact tallies_setProperty target key value
      | removeProperty key => exact tallies_setProperty target key .null
      | addLabel label => exact tallies_addLabel var target label
      | removeLabel label => exact tallies_removeLabel var target label
      | delete => exact tallies_remove target

theorem sum_isWrite (updates : List Update) :
    (updates.map fun update => update.action.isWrite.toNat).sum = writes updates := by
  induction updates with
  | nil => rfl
  | cons update rest ih =>
    rw [List.map_cons, List.sum_cons, ih, writes, writes, List.countP_cons]
    cases update.action.isWrite <;> simp [Nat.add_comm]

theorem tallies_apply (row : BindingRow) (updates : List Update) :
    Tallies (0, 0, writes updates) (apply row updates) := by
  have each := RefusableAction.Adds.forM (tallies_applyOne row) updates
  rwa [sum_tallies, sum_isWrite] at each

/-- Updating rows writes as often as there are rows and writing updates. -/
theorem tallies_applyEach (rows : List BindingRow) (updates : List Update) :
    Tallies (0, 0, rows.length * writes updates)
      (rows.forM fun row => apply row updates : Action PUnit) := by
  have each := RefusableAction.Adds.forM (fun row => tallies_apply row updates) rows
  rwa [sum_tallies, List.map_const', List.sum_const_nat] at each

/-! ## Creating -/

theorem tally_createSlotNode (slot : NodeSlot) (x : Execution) :
    (createSlotNode slot x).2.tally = x.tally + (1, 0, slot.properties.size) := by
  obtain ⟨_, _, counted⟩ := countLabels_frame slot.labels x
  have same := congrArg tally counted
  exact congrArg (· + (1, 0, slot.properties.size)) same

/-- Filling slots creates a node for each slot that none is given for. -/
theorem tally_fillNodes (pairs : List (NodeSlot × Option NodeId)) (x : Execution) :
    (fillNodes pairs x).2.tally = x.tally +
      (((pairs.filter fun pair => pair.2.isNone).map Prod.fst).map fun slot =>
        ((1, 0, slot.properties.size) : Nat × Nat × Nat)).sum := by
  induction pairs generalizing x with
  | nil => exact (add_zero _).symm
  | cons pair rest ih =>
    obtain ⟨slot, bound⟩ := pair
    cases bound with
    | some id => exact ih x
    | none =>
      show (fillNodes rest (createSlotNode slot x).2).2.tally = _
      rw [ih, tally_createSlotNode, add_assoc]
      rfl

theorem tallies_createSlotRel (nodes : List NodeId) (slot : RelSlot) :
    Tallies (0, 1, slot.properties.size) (createSlotRel nodes slot) := by
  refine .after (tallies_onGraph _) fun id => ?_
  rw [← add_zero ((0, 1, slot.properties.size) : Nat × Nat × Nat)]
  exact .bind (.modify fun _ => rfl) fun _ => .after (.modify fun _ => rfl) fun _ => .pure id

/-- The slots that no node is given for are those the row leaves open. -/
theorem map_fst_filter_fixedNode (usable : ∀ slot ∈ p.nodes, slot.Usable g row) :
    ((p.nodes.zip (p.nodes.map (fixedNode row))).filter fun pair => pair.2.isNone).map Prod.fst =
      p.openNodes row := by
  have pairs : p.nodes.zip (p.nodes.map (fixedNode row)) =
      p.nodes.map fun slot => (slot, fixedNode row slot) := by
    rw [← List.zip_map', List.map_id']
  rw [pairs, List.filter_map, List.map_map, Pattern.openNodes, ← filter_fixedNode_isNone usable]
  exact List.map_id _

/-- Created entities have as many properties as their slots have literals. -/
theorem sum_size_eq_length (tidy : p.Tidy) (row : BindingRow) :
    ((p.openNodes row).map fun slot => slot.properties.size).sum +
      (p.rels.map fun slot => slot.properties.size).sum = (p.newLiterals row).length := by
  have nodes : (p.openNodes row).map (fun slot => slot.properties.size) =
      (p.openNodes row).map fun slot => slot.literals.length :=
    List.map_congr_left fun slot mem =>
      (tidy.nodeLiterals slot (List.mem_filter.1 mem).1).size_ofPairs
  have rels : p.rels.map (fun slot => slot.properties.size) =
      p.rels.map fun slot => slot.literals.length :=
    List.map_congr_left fun slot mem => (tidy.relLiterals slot mem).size_ofPairs
  rw [nodes, rels, Pattern.newLiterals, List.length_append, List.length_flatMap,
    List.length_flatMap]

/-- A creation that succeeds creates a node for each slot the row leaves open and a
relationship for each relationship slot, with their literals. -/
theorem tally_create (tidy : p.Tidy) {result : BindingRow}
    (created : create p row x = (.ok result, x')) :
    x'.tally =
      x.tally + ((p.openNodes row).length, p.rels.length, (p.newLiterals row).length) := by
  rw [create, RefusableAction.bind_get] at created
  obtain ⟨bound, x₁, passed, created⟩ := RefusableAction.of_bind_eq_ok created
  obtain ⟨nodes, x₂, filled, created⟩ := RefusableAction.of_bind_eq_ok created
  obtain ⟨rels, x₃, connected, created⟩ := RefusableAction.of_bind_eq_ok created
  cases created
  have made := RefusableAction.Adds.mapM (tallies_createSlotRel nodes) p.rels _ _ _ connected
  cases checked : checkCreation x.graph p row with
  | error e =>
    rw [checked] at passed
    cases passed
  | ok bound' =>
    rw [checked] at passed
    cases passed
    cases filled
    obtain ⟨rfl, usable, -⟩ := of_checkCreation checked
    rw [made, tally_fillNodes, map_fst_filter_fixedNode usable, sum_tallies, sum_tallies, add_assoc,
      ← sum_size_eq_length tidy row]
    simp

end Execution

end PropertyGraph
