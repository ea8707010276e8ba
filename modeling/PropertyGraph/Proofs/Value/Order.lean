import PropertyGraph.Predicate

/-!
# Values that index alike

Values that are equal in index order have one rank, are null or not-a-number
together, and so answer every comparison alike: an index entry may be tested by
any one of the values filed under it. Where the comparison of predicates has an
answer, it is the index order's, and the ranks are the same.
-/

namespace PropertyGraph

open Std

/-! ## Ranks -/

namespace TypeRank

instance : LawfulEqOrd TypeRank where
  eq_of_compare {a b} h := by
    have same : a.position = b.position := LawfulEqOrd.eq_of_compare h
    cases a <;> cases b <;> first | rfl | cases same

theorem isLE_compare_iff {a b : TypeRank} :
    (compare a b).isLE = true ↔ a.position ≤ b.position :=
  Nat.isLE_compare

end TypeRank

namespace Value

theorem compare_eq_lex (a b : Value) :
    compare a b = (compare a.rank b.rank).then ((compare a.placeOrZero b.placeOrZero).then
      ((compare a.textOrEmpty b.textOrEmpty).then (compare a.truthOrFalse b.truthOrFalse))) :=
  congrFun (congrFun indexCompare_eq_lex a) b

theorem rank_eq_of_compare {a b : Value} (same : compare a b = .eq) : a.rank = b.rank := by
  rw [compare_eq_lex, Ordering.then_eq_eq] at same
  exact LawfulEqOrd.eq_of_compare same.1

/-- Ranks do not decrease along the index order. -/
theorem position_le_of_compare {a b : Value} (le : (compare a b).isLE = true) :
    a.rank.position ≤ b.rank.position := by
  rw [compare_eq_lex] at le
  exact TypeRank.isLE_compare_iff.1 (Ordering.isLE_left_of_isLE_then le)

theorem isNull_iff (v : Value) : v.isNull = true ↔ v.rank = .null := by
  cases v <;> simp [isNull, rank]

theorem isNull_congr {a b : Value} (same : compare a b = .eq) : a.isNull = b.isNull := by
  rw [Bool.eq_iff_iff, isNull_iff, isNull_iff, rank_eq_of_compare same]

/-- Not-a-number is what lies on the last stretch of the number line. -/
theorem isNaN_eq_stretch (v : Value) : v.isNaN = (v.placeOrZero.stretch == 3) := by
  cases v with
  | float x =>
    cases x with
    | infinite negative => cases negative <;> rfl
    | _ => rfl
  | _ => rfl

theorem isNaN_congr {a b : Value} (same : compare a b = .eq) : a.isNaN = b.isNaN := by
  rw [compare_eq_lex, Ordering.then_eq_eq, Ordering.then_eq_eq] at same
  have stretches : a.placeOrZero.stretch = b.placeOrZero.stretch :=
    LawfulEqOrd.eq_of_compare (Ordering.then_eq_eq.1 same.2.1).1
  rw [isNaN_eq_stretch, isNaN_eq_stretch, stretches]

/-! ## The comparison of predicates -/

/-- There is an answer exactly for two values of one rank that are neither null nor
not-a-number, and it is that of the index order. -/
theorem compare?_eq_some_iff {a b : Value} {o : Ordering} :
    a.compare? b = some o ↔ a.isNaN = false ∧ b.isNaN = false ∧ a.rank = b.rank ∧
      a.isNull = false ∧ compare a b = o := by
  rw [compare?, Option.ite_none_left_eq_some, Option.ite_none_left_eq_some]
  simp [and_assoc, compare]

/-- Where there is an answer, the ranks agree and the index order gives it. -/
theorem of_compare?_eq_some {a b : Value} {o : Ordering} (answer : a.compare? b = some o) :
    a.rank = b.rank ∧ compare a b = o := by
  rcases compare?_eq_some_iff.1 answer with ⟨_, _, ranks, _, order⟩
  exact ⟨ranks, order⟩

theorem compare?_congr_left {a a' : Value} (same : compare a a' = .eq) (b : Value) :
    a.compare? b = a'.compare? b := by
  have answers : compare a b = compare a' b := TransCmp.congr_left same
  have alike : indexCompare a b = indexCompare a' b := answers
  rw [compare?, compare?, isNaN_congr same, rank_eq_of_compare same, isNull_congr same, alike]

theorem compare?_congr_right {b b' : Value} (same : compare b b' = .eq) (a : Value) :
    a.compare? b = a.compare? b' := by
  have answers : compare a b = compare a b' := TransCmp.congr_right same
  have alike : indexCompare a b = indexCompare a b' := answers
  rw [compare?, compare?, isNaN_congr same, rank_eq_of_compare same, alike]

end Value

/-! ## Operators -/

namespace CompareOp

theorem holds_congr_left {a a' : Value} (same : compare a a' = .eq) (op : CompareOp)
    (b : Value) : op.holds a b = op.holds a' b := by
  simp only [holds, Value.equals, Value.isNull_congr same, Value.compare?_congr_left same]

theorem holds_congr_right {b b' : Value} (same : compare b b' = .eq) (op : CompareOp)
    (a : Value) : op.holds a b = op.holds a b' := by
  simp only [holds, Value.equals, Value.isNull_congr same, Value.compare?_congr_right same]

/-- Whether an operator holds where the comparison has the given answer. -/
def admits : CompareOp → Ordering → Bool
  | .eq, o => o == .eq
  | .ne, o => o != .eq
  | .lt, o => o == .lt
  | .le, o => o.isLE
  | .gt, o => o == .gt
  | .ge, o => o.isGE

/-- All operators but the one for different values need an answer of the
comparison. -/
theorem compare_of_holds {op : CompareOp} {a b : Value} (ordered : op ≠ .ne)
    (holds : op.holds a b = true) : a.rank = b.rank ∧ op.admits (compare a b) = true := by
  unfold CompareOp.holds at holds
  rw [Bool.and_eq_true] at holds
  have decided := holds.2
  cases answer : a.compare? b with
  | none => cases op <;> simp_all [Value.equals]
  | some o =>
    obtain ⟨ranks, rfl⟩ := Value.of_compare?_eq_some answer
    refine ⟨ranks, ?_⟩
    generalize compare a b = o at answer
    cases op <;> cases o <;> simp_all [Value.equals, admits]

/-- As an operator, equality is equality of values: no value equals null. -/
theorem holds_eq (a b : Value) : CompareOp.eq.holds a b = a.equals b := by
  unfold holds
  cases equal : a.equals b with
  | false => exact Bool.and_false _
  | true =>
    have answer : a.compare? b = some .eq := beq_iff_eq.1 equal
    have stored : a.isNull = false := by
      cases null : a.isNull with
      | false => rfl
      | true => simp [Value.compare?, null] at answer
    rw [← Value.isNull_congr (Value.of_compare?_eq_some answer).2, stored]
    rfl

/-- No operator holds of null. -/
theorem holds_null (op : CompareOp) (a b : Value) (null : b.isNull = true) :
    op.holds a b = false := by
  unfold holds
  rw [null]
  simp

end CompareOp

end PropertyGraph
