import PropertyGraph.Index.PropertyIndex
import PropertyGraph.Proofs.Index.Postings
import PropertyGraph.Proofs.Ordered.Sort
import PropertyGraph.Proofs.Value.Order

/-!
# Property indexes as lists of postings

A scan cuts a range out of the index before it tests the entries in it. The cut
never loses an entry: a scan is the list of all postings, filtered by the
operator. The size that an index keeps is the number of its postings.
-/

namespace PropertyGraph

open Std

namespace PropertyIndex

/-! ## Scans -/

section Ranges

variable {es : List (Value × OrderedSet NodeId)} {operand : Value}

/-- Values below the operand come first. -/
theorem below_closed (ascending : es.Pairwise fun a b => compare a.1 b.1 = .lt) :
    es.Pairwise fun a b =>
      (compare b.1 operand == .lt) = true → (compare a.1 operand == .lt) = true := by
  refine ascending.imp fun lt below => ?_
  rw [beq_iff_eq] at below ⊢
  exact TransCmp.lt_trans lt below

/-- Among values not below the operand, those of its rank come first. -/
theorem rank_closed (ascending : es.Pairwise fun a b => compare a.1 b.1 = .lt)
    (above : ∀ e ∈ es, (compare e.1 operand == .lt) = false) :
    es.Pairwise fun a b =>
      (b.1.rank == operand.rank) = true → (a.1.rank == operand.rank) = true := by
  refine List.Pairwise.imp_of_mem (fun {a b} amem _ lt same => ?_) ascending
  rw [beq_iff_eq] at same ⊢
  have ge : (compare operand a.1).isLE = true := by
    have notLt := above a amem
    have swapped : compare operand a.1 = (compare a.1 operand).swap := OrientedCmp.eq_swap
    rw [swapped, Ordering.isLE_swap]
    cases order : compare a.1 operand <;> simp_all
  have low := Value.position_le_of_compare ge
  have high := Value.position_le_of_compare (Ordering.isLE_of_eq_lt lt)
  rw [same] at high
  have position : a.1.rank.position = operand.rank.position := Nat.le_antisymm high low
  exact LawfulEqOrd.eq_of_compare (Nat.compare_eq_eq.2 position)

/-- Among values not below the operand, those equal to it come first. -/
theorem equal_closed (ascending : es.Pairwise fun a b => compare a.1 b.1 = .lt)
    (above : ∀ e ∈ es, (compare e.1 operand == .lt) = false) :
    es.Pairwise fun a b =>
      (compare b.1 operand == .eq) = true → (compare a.1 operand == .eq) = true := by
  refine List.Pairwise.imp_of_mem (fun {a b} amem _ lt same => ?_) ascending
  rw [beq_iff_eq] at same
  have below : compare a.1 operand = .lt := by rw [← TransCmp.congr_right same, lt]
  have notBelow := above a amem
  rw [below] at notBelow
  cases notBelow

end Ranges

/-- An operator that does not hold below its operand loses nothing by the
entries below. -/
theorem filter_onwards (index : PropertyIndex) {op : CompareOp} (operand : Value)
    (ordered : op ≠ .ne) (never : op.admits .lt = false) :
    ((index.postings.sets.onwards operand).filter fun e => op.holds e.1 operand) =
      index.postings.sets.entries.filter fun e => op.holds e.1 operand := by
  refine filter_dropWhile fun e _ holds => Bool.eq_false_iff.2 fun below => ?_
  have outcome := (CompareOp.compare_of_holds ordered holds).2
  rw [beq_iff_eq.1 below, never] at outcome
  cases outcome

/-- An operator that does not hold above its operand loses nothing by the
entries above. -/
theorem filter_upTo (index : PropertyIndex) {op : CompareOp} (operand : Value)
    (ordered : op ≠ .ne) (never : op.admits .gt = false) :
    ((index.postings.sets.upTo operand).filter fun e => op.holds e.1 operand) =
      index.postings.sets.entries.filter fun e => op.holds e.1 operand := by
  refine filter_takeWhile (index.postings.sets.ascending.imp fun lt below => ?_)
    fun e _ holds => bne_iff_ne.2 fun above => ?_
  · have le := Ordering.isLE_iff_ne_gt.2 (bne_iff_ne.1 below)
    exact bne_iff_ne.2 <| Ordering.isLE_iff_ne_gt.1 <|
      TransCmp.isLE_trans (Ordering.isLE_of_eq_lt lt) le
  · have outcome := (CompareOp.compare_of_holds ordered holds).2
    rw [above, never] at outcome
    cases outcome

/-- Nothing outside the range of an operator satisfies it. -/
theorem filter_range (index : PropertyIndex) (op : CompareOp) (operand : Value) :
    ((index.range op operand).filter fun e => op.holds e.1 operand) =
      index.postings.sets.entries.filter fun e => op.holds e.1 operand := by
  have onwards : (index.postings.sets.onwards operand).Pairwise
      fun a b => compare a.1 b.1 = .lt :=
    index.postings.sets.ascending.sublist (List.dropWhile_sublist _)
  have above : ∀ e ∈ index.postings.sets.onwards operand,
      (compare e.1 operand == .lt) = false :=
    forall_mem_dropWhile (below_closed index.postings.sets.ascending)
  have upper : op ≠ .ne → op.admits .lt = false →
      (((index.postings.sets.onwards operand).takeWhile fun e => e.1.rank == operand.rank).filter
          fun e => op.holds e.1 operand) =
        index.postings.sets.entries.filter fun e => op.holds e.1 operand := by
    intro ordered never
    rw [← filter_onwards index operand ordered never]
    exact filter_takeWhile (rank_closed onwards above) fun e _ holds =>
      beq_iff_eq.2 (CompareOp.compare_of_holds ordered holds).1
  have lower : op ≠ .ne → op.admits .gt = false →
      (((index.postings.sets.upTo operand).dropWhile fun e => e.1.rank != operand.rank).filter
          fun e => op.holds e.1 operand) =
        index.postings.sets.entries.filter fun e => op.holds e.1 operand := by
    intro ordered never
    rw [← filter_upTo index operand ordered never]
    exact filter_dropWhile fun e _ holds => by
      simp [(CompareOp.compare_of_holds ordered holds).1]
  cases op with
  | eq =>
    rw [← filter_onwards index operand (by decide) rfl]
    exact filter_takeWhile (equal_closed onwards above) fun e _ holds =>
      (CompareOp.compare_of_holds (by decide) holds).2
  | ne => rfl
  | lt => exact lower (by decide) rfl
  | le => exact lower (by decide) rfl
  | gt => exact upper (by decide) rfl
  | ge => exact upper (by decide) rfl

/-- A scan is the list of postings, filtered by the operator. -/
theorem scan_eq (index : PropertyIndex) (op : CompareOp) (operand : Value) :
    index.scan op operand =
      (index.toList.filter fun e => op.holds e.1 operand).map Prod.snd := by
  have flat : ∀ es : List (Value × OrderedSet NodeId),
      ((es.filter fun e => op.holds e.1 operand).flatMap fun e => e.2.toList) =
        ((es.flatMap fun e => e.2.toList.map fun node => (e.1, node)).filter
          fun e => op.holds e.1 operand).map Prod.snd := by
    intro es
    induction es with
    | nil => rfl
    | cons e es ih =>
      rw [List.flatMap_cons, List.filter_append, List.map_append, ← ih, List.filter_cons]
      by_cases holds : op.holds e.1 operand = true
      · simp [holds, List.filter_map, Function.comp_def]
      · simp [holds, List.filter_map, Function.comp_def]
  rw [scan, filter_range, flat]
  split
  · rename_i null
    have none : (index.toList.filter fun e => op.holds e.1 operand) = [] :=
      List.filter_eq_nil_iff.2 fun e _ holds => by
        rw [CompareOp.holds_null op e.1 operand null] at holds
        cases holds
    rw [none]
    rfl
  · rfl

theorem mem_scan_iff {index : PropertyIndex} {op : CompareOp} {operand : Value} {id : NodeId} :
    id ∈ index.scan op operand ↔
      ∃ value, (value, id) ∈ index.toList ∧ op.holds value operand = true := by
  rw [scan_eq, List.mem_map]
  constructor
  · intro given
    rcases given with ⟨⟨value, _⟩, mem, rfl⟩
    exact ⟨value, List.mem_filter.1 mem⟩
  · intro given
    rcases given with ⟨value, mem⟩
    exact ⟨(value, id), List.mem_filter.2 mem, rfl⟩

/-! ## Changes -/

@[simp]
theorem holds_empty (value : Value) (id : NodeId) :
    empty.postings.holds value id = false := rfl

theorem holds_insert {index : PropertyIndex} {value : Value} (stored : value.isNull = false)
    {id : NodeId} {q : Value} {n : NodeId} :
    (index.insert value id).postings.holds q n = true ↔
      (compare value q = .eq ∧ n = id) ∨ index.postings.holds q n = true := by
  rw [insert, stored, if_neg (by decide)]
  exact Postings.holds_post_iff

theorem holds_remove {index : PropertyIndex} {value : Value} {id : NodeId} {q : Value}
    {n : NodeId} :
    (index.remove value id).postings.holds q n = true ↔
      index.postings.holds q n = true ∧ ¬(compare value q = .eq ∧ n = id) :=
  Postings.holds_withdraw_iff

/-- The size that the index keeps is the number of its postings. -/
def Counted (index : PropertyIndex) : Prop := index.size = index.toList.length

theorem Counted.empty : PropertyIndex.empty.Counted := rfl

theorem Counted.insert {index : PropertyIndex} (counted : index.Counted) (value : Value)
    (id : NodeId) : (index.insert value id).Counted := by
  rw [PropertyIndex.insert]
  split
  · exact counted
  · rw [Counted, toList, Postings.length_toList_post]
    rw [Counted, toList] at counted
    simp only [counted]

theorem Counted.remove {index : PropertyIndex} (counted : index.Counted) (value : Value)
    (id : NodeId) : (index.remove value id).Counted := by
  rw [Counted, toList, PropertyIndex.remove, Postings.length_toList_withdraw]
  rw [Counted, toList] at counted
  simp only [counted]

end PropertyIndex

end PropertyGraph
