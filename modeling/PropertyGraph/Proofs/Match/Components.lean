import PropertyGraph.Proofs.Match.Schedule
import Mathlib.Combinatorics.SimpleGraph.Connectivity.Connected
import Mathlib.Data.Set.Card

/-!
# Scans and components

The node slots of a pattern make a graph in which the ends of every relationship
slot are joined. The planning loop scans only when what is bound is closed under
these joins, so it binds all of a component before it scans for a slot of another:
as many scans follow an account as there are components none of which is bound.
-/

namespace PropertyGraph

namespace Pattern

variable {p : Pattern} {bound : List Nat}

/-- The node slots, joined if they are the ends of a relationship slot. -/
def slotGraph (p : Pattern) : SimpleGraph (Fin p.nodes.length) :=
  .fromRel fun a b => ∃ slot ∈ p.rels, slot.source = a ∧ slot.target = b

theorem adj_of_ends {rel : RelSlot} (mem : rel ∈ p.rels) {a b : Fin p.nodes.length}
    (distinct : a ≠ b)
    (ends : a.val = rel.source ∧ b.val = rel.target ∨
      a.val = rel.target ∧ b.val = rel.source) : p.slotGraph.Adj a b := by
  refine (SimpleGraph.fromRel_adj _ _ _).2 ⟨distinct, ?_⟩
  rcases ends with ⟨source, target⟩ | ⟨target, source⟩
  · exact .inl ⟨rel, mem, source.symm, target.symm⟩
  · exact .inr ⟨rel, mem, source.symm, target.symm⟩

/-- The row fixes a node slot through its own variable or through that of a
relationship slot at its end. -/
def Fixes (p : Pattern) (row : BindingRow) (position : Nat) : Prop :=
  (∃ slot entity, p.nodes[position]? = some slot ∧ slot.bound? row = some entity) ∨
    ∃ slot entity, slot ∈ p.rels ∧ slot.bound? row = some entity ∧
      (position = slot.source ∨ position = slot.target)

/-- The components without a bound slot. -/
def vacantComponents (p : Pattern) (bound : List Nat) : Set p.slotGraph.ConnectedComponent :=
  {component | ∀ slot ∈ component.supp, slot.val ∉ bound}

/-- If every slot is bound, no component is without a bound one. -/
theorem vacantComponents_of_all (all : ∀ slot < p.nodes.length, slot ∈ bound) :
    p.vacantComponents bound = ∅ := by
  refine Set.eq_empty_of_forall_notMem fun component vacant => ?_
  obtain ⟨slot, mem⟩ := component.nonempty_supp
  exact vacant slot mem (all slot.val slot.isLt)

/-- Binding a slot next to a bound one leaves the same components. -/
theorem vacantComponents_cons_of_adj {origin goal : Fin p.nodes.length}
    (adj : p.slotGraph.Adj origin goal) (mem : origin.val ∈ bound) :
    p.vacantComponents (goal.val :: bound) = p.vacantComponents bound := by
  ext component
  refine ⟨fun vacant slot inside bound => vacant slot inside (List.mem_cons_of_mem _ bound),
    fun vacant slot inside bound => ?_⟩
  rcases List.mem_cons.1 bound with same | bound
  · cases Fin.ext same
    exact vacant origin ((component.mem_supp_congr_adj adj).2 inside) mem
  · exact vacant slot inside bound

/-- Binding a slot of a component without a bound one leaves one component less. -/
theorem vacantComponents_cons {slot : Fin p.nodes.length}
    (vacant : p.slotGraph.connectedComponentMk slot ∈ p.vacantComponents bound) :
    (p.vacantComponents bound).ncard = (p.vacantComponents (slot.val :: bound)).ncard + 1 := by
  have gone : p.slotGraph.connectedComponentMk slot ∉ p.vacantComponents (slot.val :: bound) :=
    fun vacant => vacant slot rfl List.mem_cons_self
  rw [← Set.ncard_insert_of_notMem gone]
  congr 1
  ext component
  rw [Set.mem_insert_iff]
  constructor
  · intro free
    refine or_iff_not_imp_left.2 fun other q inside bound => ?_
    rcases List.mem_cons.1 bound with same | bound
    · cases Fin.ext same
      exact other inside.symm
    · exact free q inside bound
  · intro cases
    rcases cases with rfl | free
    · exact vacant
    · exact fun q inside bound => free q inside (List.mem_cons_of_mem _ bound)

end Pattern

namespace Graph

variable {g : Graph} {p : Pattern} {row : BindingRow} {s : Progress} {steps : List MatchStep}

/-! ## Scans that follow -/

/-- Where no relationship slot that is left has a bound end, all that is joined to
a bound slot is bound. -/
theorem bound_of_reachable (settled : s.Settled p)
    (apart : ∀ position rel, p.rels[position]? = some rel → position ∉ s.placed →
      rel.source ∉ s.bound ∧ rel.target ∉ s.bound)
    {slot other : Fin p.nodes.length} (reachable : p.slotGraph.Reachable slot other)
    (bound : slot.val ∈ s.bound) : other.val ∈ s.bound := by
  have both : ∀ rel ∈ p.rels, rel.source ∈ s.bound ∨ rel.target ∈ s.bound →
      rel.source ∈ s.bound ∧ rel.target ∈ s.bound := by
    intro rel mem oneEnd
    obtain ⟨position, inside, rfl⟩ := List.getElem_of_mem mem
    have found := List.getElem?_eq_getElem inside
    by_cases placed : position ∈ s.placed
    · obtain ⟨rel, found', ends⟩ := settled.ends position placed
      cases found.symm.trans found'
      exact ends
    · obtain ⟨source, target⟩ := apart position _ found placed
      exact (oneEnd.elim source target).elim
  rw [SimpleGraph.reachable_iff_reflTransGen] at reachable
  induction reachable with
  | refl => exact bound
  | tail _ adj ih =>
    obtain ⟨_, joined⟩ := (SimpleGraph.fromRel_adj _ _ _).1 adj
    rcases joined with ⟨rel, mem, source, target⟩ | ⟨rel, mem, source, target⟩
    · exact target ▸ (both rel mem (.inl (source ▸ ih))).2
    · exact source ▸ (both rel mem (.inr (target ▸ ih))).1

/-- One scan follows for each component without a bound slot. -/
theorem Proceeds.countP_isSeed (proceeds : g.Proceeds p s steps) (coherent : g.Coherent)
    (wellFormed : p.WellFormed) (settled : s.Settled p) :
    steps.countP MatchStep.isSeed = (p.vacantComponents s.bound).ncard := by
  induction proceeds with
  | stop stuck =>
    have done := done_of_nextStep?_eq_none wellFormed stuck
    rw [Pattern.vacantComponents_of_all done.nodes, Set.ncard_empty, List.countP_nil]
  | @step s step steps next _ ih =>
    have chosen := chosen_of_nextStep? next
    have counted := ih ((chosen.ready coherent).settled settled)
    cases chosen with
    | check found waiting source target =>
      rw [List.countP_cons_of_neg Bool.false_ne_true, counted]
      rfl
    | @expand position origin goal rel found waiting bound unbound ends =>
      have mem := List.mem_of_getElem? found
      have inside : origin < p.nodes.length ∧ goal < p.nodes.length := by
        rcases ends with ⟨rfl, rfl⟩ | ⟨rfl, rfl⟩
        · exact ⟨wellFormed.source rel mem, wellFormed.target rel mem⟩
        · exact ⟨wellFormed.target rel mem, wellFormed.source rel mem⟩
      have distinct : origin ≠ goal := fun same => unbound (same ▸ bound)
      have adj : p.slotGraph.Adj ⟨origin, inside.1⟩ ⟨goal, inside.2⟩ :=
        Pattern.adj_of_ends mem (fun same => distinct (congrArg Fin.val same)) ends
      rw [List.countP_cons_of_neg Bool.false_ne_true, counted]
      exact congrArg Set.ncard (Pattern.vacantComponents_cons_of_adj adj bound)
    | @seed position slot found unbound apart =>
      have inside := (List.getElem?_eq_some_iff.1 found).1
      have vacant : p.slotGraph.connectedComponentMk ⟨position, inside⟩ ∈
          p.vacantComponents s.bound := fun other joined bound =>
        unbound (bound_of_reachable settled apart
          (SimpleGraph.ConnectedComponent.exact joined) bound)
      rw [List.countP_cons_of_pos rfl, counted, Pattern.vacantComponents_cons vacant]
      rfl

/-! ## Slots that the row fixes -/

/-- The steps for what the row fixes bind just the slots that it fixes. -/
theorem mem_bound_fixedSteps_iff (usable : g.Usable p row) {position : Nat} :
    position ∈ ((fixedSteps p row).foldl (Progress.after p) .start).bound ↔
      p.Fixes row position := by
  rw [Progress.mem_bound_foldl, Progress.start, or_iff_left List.not_mem_nil]
  constructor
  · intro bound
    obtain ⟨step, mem, bound⟩ := bound
    rcases mem_fixedSteps_iff.1 mem with
      ⟨q, slot, id, found, fixed, rfl⟩ | ⟨q, rel, id, found, fixed, rfl⟩
    · cases List.mem_singleton.1 bound
      exact .inl ⟨slot, _, found, fixed⟩
    · rw [MatchStep.slots, found] at bound
      exact .inr ⟨rel, _, List.mem_of_getElem? found, fixed, by simpa using bound⟩
  · intro fixes
    rcases fixes with ⟨slot, entity, found, fixed⟩ | ⟨rel, entity, mem, fixed, ends⟩
    · obtain ⟨id, rfl, _⟩ := usable.nodes slot (List.mem_of_getElem? found) entity fixed
      exact ⟨.boundNode position id, mem_fixedSteps_iff.2 (.inl ⟨_, slot, id, found, fixed, rfl⟩),
        List.mem_singleton_self position⟩
    · obtain ⟨id, rfl, _⟩ := usable.rels rel mem entity fixed
      obtain ⟨q, inside, rfl⟩ := List.getElem_of_mem mem
      have found := List.getElem?_eq_getElem inside
      refine ⟨.boundRel q id, mem_fixedSteps_iff.2 (.inr ⟨q, _, id, found, fixed, rfl⟩), ?_⟩
      rw [MatchStep.slots, found]
      simpa using ends

end Graph

end PropertyGraph
