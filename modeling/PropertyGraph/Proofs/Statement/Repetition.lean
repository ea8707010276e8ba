import PropertyGraph.Proofs.Pattern.Literals
import PropertyGraph.Proofs.Statement.Instance
import PropertyGraph.Proofs.Value.Order
import Mathlib.Data.List.Perm.Subperm

/-!
# Merging again

A merge takes nothing away, so matches stay matches, and an instance that it
creates is a match itself unless a literal is not a number. So whatever rows were
merged, merging them again finds a match for each, creates nothing and answers at
least the rows it answered before. With a literal that is not a number there is
no match ever, and each row that is merged gets an instance of its own.
-/

namespace PropertyGraph

open Std

/-- A value is equal to itself unless it is null or not a number. -/
theorem Value.equals_self {v : Value} (present : v.isNull = false) (number : v.isNaN = false) :
    v.equals v = true := by
  have same : compare v v = .eq := ReflCmp.compare_self
  change v.indexCompare v = .eq at same
  simp [equals, compare?, number, present, same]

/-- Nothing is equal to what is not a number. -/
theorem Value.equals_of_isNaN (v : Value) {w : Value} (notNumber : w.isNaN = true) :
    v.equals w = false := by
  simp [equals, compare?, notNumber]

/-! ## Slots and what they describe -/

theorem satisfy_of_described {properties : Properties} {literals : List (String × Value)}
    (gathered : Gathered literals)
    (described : ∀ key value, properties.get? key = some value ↔ (key, value) ∈ literals)
    (numbers : ∀ literal ∈ literals, literal.2.isNaN = false) :
    properties.satisfy literals = true := by
  refine List.all_eq_true.2 fun literal mem => ?_
  rw [(described literal.1 literal.2).2 mem]
  exact Value.equals_self (gathered.noNull literal mem) (numbers literal mem)

theorem satisfy_of_isNaN {properties : Properties} {literals : List (String × Value)}
    (notNumber : ∃ literal ∈ literals, literal.2.isNaN = true) :
    properties.satisfy literals = false := by
  obtain ⟨literal, mem, notNumber⟩ := notNumber
  refine List.all_eq_false.2 ⟨literal, mem, ?_⟩
  rw [Bool.not_eq_true]
  cases properties.get? literal.1 with
  | none => rfl
  | some actual => exact actual.equals_of_isNaN notNumber

theorem NodeSlot.Describes.accepts {slot : NodeSlot} {node : Node} (describes : slot.Describes node)
    (gathered : Gathered slot.literals)
    (numbers : ∀ literal ∈ slot.literals, literal.2.isNaN = false) : slot.accepts node = true := by
  rw [NodeSlot.accepts, Bool.and_eq_true]
  refine ⟨List.all_eq_true.2 fun label mem => ?_, ?_⟩
  · rw [Node.hasLabel_iff, describes.labels]
    exact mem
  · exact satisfy_of_described gathered describes.properties numbers

theorem RelSlot.Describes.accepts {slot : RelSlot} {rel : Relationship}
    (describes : slot.Describes rel) (gathered : Gathered slot.literals)
    (numbers : ∀ literal ∈ slot.literals, literal.2.isNaN = false) : slot.accepts rel = true := by
  rw [RelSlot.accepts, Bool.and_eq_true]
  exact ⟨beq_iff_eq.2 describes.type, satisfy_of_described gathered describes.properties numbers⟩

/-- A pattern with a literal that is not a number has no match. -/
theorem Graph.not_holds_of_isNaN {g : Graph} {p : Pattern} {row : BindingRow} {m : Match}
    (notNumber : ∃ literal ∈ p.literals, literal.2.isNaN = true) : ¬m.Holds g p row := by
  intro holds
  rcases Pattern.exists_literal_iff.1 notNumber with ⟨slot, mem, notNumber⟩ | ⟨slot, mem, notNumber⟩
  · obtain ⟨position, inside, rfl⟩ := List.getElem_of_mem mem
    have inside' : position < m.nodes.length := holds.nodesLength ▸ inside
    obtain ⟨⟨node, _, accepted⟩, _⟩ := holds.node position _ _
      (List.getElem?_eq_getElem inside) (List.getElem?_eq_getElem inside')
    rw [NodeSlot.accepts, satisfy_of_isNaN notNumber, Bool.and_false] at accepted
    cases accepted
  · obtain ⟨position, inside, rfl⟩ := List.getElem_of_mem mem
    have inside' : position < m.rels.length := holds.relsLength ▸ inside
    obtain ⟨⟨rel, _, accepted, _⟩, _⟩ := holds.rel position _ _
      (List.getElem?_eq_getElem inside) (List.getElem?_eq_getElem inside')
    rw [RelSlot.accepts, satisfy_of_isNaN notNumber, Bool.and_false] at accepted
    cases accepted

namespace Execution

variable {p : Pattern} {row result : BindingRow} {m : Match} {x x' : Execution}
  {before after : Graph}

/-! ## An instance is a match -/

theorem Instantiates.grows (instantiates : Instantiates p row before after m result) :
    before.Grows after where
  nodes id node found :=
    (instantiates.otherNodes id (.inr (Graph.hasNode_iff.2 ⟨node, found⟩))).trans found
  rels id rel found := by
    refine (instantiates.otherRels id fun mem => ?_).trans found
    obtain ⟨position, inside, rfl⟩ := List.getElem_of_mem mem
    have inside' : position < p.rels.length := instantiates.rels.length_eq ▸ inside
    have free := ((List.forall₂_iff_get.1 instantiates.rels).2 position inside' inside).free
    rw [List.get_eq_getElem, found] at free
    cases free

/-- The entities of an instance are a match, if the bound nodes were accepted. -/
theorem Instantiates.holds (instantiates : Instantiates p row before after m result)
    (tidy : p.Tidy) (numbers : ∀ literal ∈ p.literals, literal.2.isNaN = false)
    (accepts : ∀ slot ∈ p.nodes, ¬Rejects before row slot)
    (unbound : ∀ slot ∈ p.rels, slot.bound? row = none) : m.Holds after p row where
  nodesLength := instantiates.nodes.length_eq.symm
  relsLength := instantiates.rels.length_eq.symm
  distinct := instantiates.newRels
  node position slot id found has := by
    obtain ⟨inside, rfl⟩ := List.getElem?_eq_some_iff.1 found
    obtain ⟨inside', rfl⟩ := List.getElem?_eq_some_iff.1 has
    have nodeFor := (List.forall₂_iff_get.1 instantiates.nodes).2 position inside inside'
    rw [List.get_eq_getElem, List.get_eq_getElem] at nodeFor
    have mem := List.getElem_mem inside
    generalize p.nodes[position] = slot at mem nodeFor
    cases bound : slot.bound? row with
    | none =>
      obtain ⟨_, node, stored, _, describes⟩ := nodeFor.created bound
      refine ⟨⟨node, stored, describes.accepts (tidy.nodeLiterals slot mem) ?_⟩, fun _ => nofun⟩
      intro literal inSlot
      refine numbers literal (List.mem_append_left _ ?_)
      exact List.mem_flatMap.2 ⟨slot, mem, inSlot⟩
    | some entity =>
      obtain ⟨rfl, live⟩ := nodeFor.bound entity bound
      obtain ⟨node, stored⟩ := Graph.hasNode_iff.1 live
      refine ⟨⟨node, instantiates.grows.nodes _ node stored, ?_⟩, fun other same => ?_⟩
      · rw [← Bool.not_eq_false]
        exact fun refused => accepts slot mem ⟨_, node, bound, stored, refused⟩
      · exact (Option.some.inj same).symm
  rel position slot id found has := by
    obtain ⟨inside, rfl⟩ := List.getElem?_eq_some_iff.1 found
    obtain ⟨inside', rfl⟩ := List.getElem?_eq_some_iff.1 has
    have relFor := (List.forall₂_iff_get.1 instantiates.rels).2 position inside inside'
    rw [List.get_eq_getElem, List.get_eq_getElem] at relFor
    have mem := List.getElem_mem inside
    generalize p.rels[position] = slot at mem relFor
    obtain ⟨rel, stored, _, describes, source, target⟩ := relFor.created
    rw [unbound slot mem]
    refine ⟨⟨rel, stored, describes.accepts (tidy.relLiterals slot mem) ?_, source, target⟩,
      fun _ => nofun⟩
    intro literal inSlot
    refine numbers literal (List.mem_append_right _ ?_)
    exact List.mem_flatMap.2 ⟨slot, mem, inSlot⟩

/-! ## Merging rows and merging them again -/

/-- The rows are those of matches from a row, at least one and none twice. -/
def Answers (p : Pattern) (g : Graph) (row : BindingRow) (rows : List BindingRow) : Prop :=
  ∃ found : List Match, found ≠ [] ∧ found.Nodup ∧ (∀ m ∈ found, m.Holds g p row) ∧
    rows = found.map fun m => p.bindRow row m.assignment

/-- What a merge answers are rows of matches in the graph that it leaves. -/
theorem merge_answers (coherent : x.graph.Coherent) (wellFormed : p.WellFormed) (tidy : p.Tidy)
    (numbers : ∀ literal ∈ p.literals, literal.2.isNaN = false) {rows : List BindingRow}
    (merged : merge p row x = (.ok rows, x')) :
    x.graph.Grows x'.graph ∧ Answers p x'.graph row rows := by
  obtain ⟨way, holds⟩ : ∃ way : MergeCase, way.Holds p row x :=
    exists_mergeCase coherent.stored wellFormed
  cases way with
  | unmatchable =>
    obtain ⟨e, _, ran⟩ := holds
    cases ran.symm.trans merged
  | matched =>
    obtain ⟨first, rest, answered, ran⟩ := holds
    cases ran.symm.trans merged
    obtain ⟨found, nodup, matches_, rows⟩ := coherent.of_findAll wellFormed answered
    refine ⟨.refl _, found, ?_, nodup, fun m mem => (matches_ m).1 mem, rows⟩
    rintro rfl
    cases rows
  | rejected =>
    obtain ⟨_, _, _, _, ran⟩ := holds
    cases ran.symm.trans merged
  | bound =>
    obtain ⟨_, _, _, _, _, ran⟩ := holds
    cases ran.symm.trans merged
  | created =>
    obtain ⟨missed, accepts, unbound, _⟩ := holds
    obtain ⟨result, rfl, created⟩ := create_of_merge missed merged
    obtain ⟨m, rfl, instantiates⟩ := instantiates_of_create coherent.stored wellFormed tidy created
    refine ⟨instantiates.grows, [m], by simp, by simp, fun other mem => ?_, rfl⟩
    rw [List.mem_singleton.1 mem]
    exact instantiates.holds tidy numbers accepts unbound

/-- A row with a match is merged without a change, and all its matches are
answered. -/
theorem Answers.merge_again (coherent : x.graph.Coherent) (wellFormed : p.WellFormed)
    {rows : List BindingRow} (answers : Answers p x.graph row rows) :
    ∃ again, merge p row x = (.ok again, x) ∧ rows.Subperm again := by
  obtain ⟨found, some, nodup, holds, rfl⟩ := answers
  obtain ⟨first, mem⟩ := List.exists_mem_of_ne_nil found some
  obtain ⟨all, _, matches_, answered⟩ :=
    coherent.findAll_of_usable wellFormed (Graph.usable_of_holds (holds first mem))
  have among : found ⊆ all := fun m mem => (matches_ m).2 (holds m mem)
  refine ⟨all.map fun m => p.bindRow row m.assignment, ?_, ?_⟩
  · obtain ⟨other, rest, same⟩ := List.exists_cons_of_ne_nil (List.ne_nil_of_mem (among mem))
    rw [same] at answered ⊢
    exact merge_of_cons answered
  · obtain ⟨part, perm, sub⟩ := List.subperm_of_subset nodup among
    exact ⟨part.map _, perm.map _, sub.map _⟩

/-- Merging rows in turn only adds to the graph, and in the end every row has the
matches that were answered for it. -/
theorem mapM_merge_answers (reachable : x.graph.Reachable) (wellFormed : p.WellFormed)
    (tidy : p.Tidy) (numbers : ∀ literal ∈ p.literals, literal.2.isNaN = false)
    {inputs : List BindingRow} {blocks : List (List BindingRow)}
    (merged : (inputs.mapM (merge p) : Action _) x = (.ok blocks, x')) :
    x.graph.Grows x'.graph ∧ List.Forall₂ (Answers p x'.graph) inputs blocks := by
  induction inputs generalizing x blocks with
  | nil =>
    cases merged
    exact ⟨.refl _, .nil⟩
  | cons row rest ih =>
    rw [List.mapM_cons] at merged
    obtain ⟨rows, x₁, first, merged⟩ := RefusableAction.of_bind_eq_ok merged
    obtain ⟨others, x₂, later, merged⟩ := RefusableAction.of_bind_eq_ok merged
    cases merged
    obtain ⟨grows, found, some, nodup, holds, rows⟩ :=
      merge_answers reachable.coherent wellFormed tidy numbers first
    have reachable₁ := graph_reachable_of_operates reachable (operating_merge p row x)
    rw [first] at reachable₁
    obtain ⟨grows', answers⟩ := ih reachable₁ later
    exact ⟨grows.trans grows', .cons
      ⟨found, some, nodup, fun m mem => grows'.holds (holds m mem), rows⟩ answers⟩

/-- Rows that all have matches are merged without a change. -/
theorem mapM_merge_again (coherent : x.graph.Coherent) (wellFormed : p.WellFormed)
    {inputs : List BindingRow} {blocks : List (List BindingRow)}
    (answers : List.Forall₂ (Answers p x.graph) inputs blocks) :
    ∃ again, (inputs.mapM (merge p) : Action _) x = (.ok again, x) ∧
      blocks.flatten.Subperm again.flatten := by
  induction answers with
  | nil => exact ⟨[], rfl, List.nil_subperm⟩
  | cons answer _ ih =>
    obtain ⟨rows, merged, among⟩ := answer.merge_again coherent wellFormed
    obtain ⟨again, later, among'⟩ := ih
    refine ⟨rows :: again, ?_, among.append among'⟩
    rw [List.mapM_cons, RefusableAction.bind_of_ok merged, RefusableAction.bind_of_ok later]
    rfl

/-! ## Merging without a match -/

/-- One instance after the other, each from its own row and with the row that
names its entities. -/
inductive InstantiatesEach (p : Pattern) :
    List BindingRow → Graph → List BindingRow → Graph → Prop
  | nil {g : Graph} : InstantiatesEach p [] g [] g
  | cons {row result : BindingRow} {inputs results : List BindingRow} {g g' g'' : Graph}
    {m : Match} : Instantiates p row g g' m result → InstantiatesEach p inputs g' results g'' →
    InstantiatesEach p (row :: inputs) g (result :: results) g''

/-- If there is no match ever, merging rows adds an instance for each. -/
theorem mapM_merge_instantiates (reachable : x.graph.Reachable) (wellFormed : p.WellFormed)
    (tidy : p.Tidy) (never : ∀ (g : Graph) row rows, g.Reachable →
      g.findAll p row = .ok rows → rows = [])
    {inputs : List BindingRow} {blocks : List (List BindingRow)}
    (merged : (inputs.mapM (merge p) : Action _) x = (.ok blocks, x')) :
    InstantiatesEach p inputs x.graph blocks.flatten x'.graph := by
  induction inputs generalizing x blocks with
  | nil =>
    cases merged
    exact .nil
  | cons row rest ih =>
    rw [List.mapM_cons] at merged
    obtain ⟨rows, x₁, first, merged⟩ := RefusableAction.of_bind_eq_ok merged
    obtain ⟨others, x₂, later, merged⟩ := RefusableAction.of_bind_eq_ok merged
    cases merged
    have missed : x.graph.findAll p row = .ok [] := by
      cases answered : x.graph.findAll p row with
      | error e =>
        rw [merge_of_error answered] at first
        cases first
      | ok found => rw [never _ _ _ reachable answered]
    obtain ⟨result, rfl, created⟩ := create_of_merge missed first
    obtain ⟨m, _, instantiates⟩ := instantiates_of_create reachable.coherent.stored wellFormed tidy
      created
    have reachable₁ := graph_reachable_of_operates reachable (operating_merge p row x)
    rw [first] at reachable₁
    exact .cons instantiates (ih reachable₁ later)

end Execution

end PropertyGraph
