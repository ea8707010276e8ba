import PropertyGraph.Ordered.Sort
import Mathlib.Data.List.Forall2

/-!
# Sorted lists

Sorting rearranges a list into ascending order. In a sorted list a part cut out
by a condition on the order is found again by filtering, and two strictly
sorted lists whose elements answer to each other do so position by position.
-/

namespace PropertyGraph

open Std

variable {α : Type u} {β : Type v}

/-! ## Sorting -/

theorem insertSorted_perm (cmp : α → α → Ordering) (a : α) (as : List α) :
    (insertSorted cmp a as).Perm (a :: as) := by
  induction as with
  | nil => exact .refl _
  | cons b bs ih =>
    rw [insertSorted]
    split
    · exact .refl _
    · exact (ih.cons b).trans (.swap a b bs)

theorem sortBy_perm (cmp : α → α → Ordering) (as : List α) : (sortBy cmp as).Perm as := by
  induction as with
  | nil => exact .refl _
  | cons a as ih => exact (insertSorted_perm cmp a _).trans (ih.cons a)

theorem insertSorted_ascending {cmp : α → α → Ordering} [TransCmp cmp] {a : α} {as : List α}
    (ascending : as.Pairwise fun x y => (cmp x y).isLE) :
    (insertSorted cmp a as).Pairwise fun x y => (cmp x y).isLE := by
  induction as with
  | nil => exact List.pairwise_singleton _ _
  | cons b bs ih =>
    obtain ⟨below, rest⟩ := List.pairwise_cons.1 ascending
    rw [insertSorted]
    split
    · rename_i le
      refine List.pairwise_cons.2 ⟨fun x mem => ?_, ascending⟩
      rcases List.mem_cons.1 mem with rfl | mem
      · exact le
      · exact TransCmp.isLE_trans le (below x mem)
    · rename_i gt
      refine List.pairwise_cons.2 ⟨fun x mem => ?_, ih rest⟩
      rcases List.mem_cons.1 ((insertSorted_perm cmp a bs).mem_iff.1 mem) with rfl | mem
      · exact Ordering.isLE_of_eq_lt (OrientedCmp.gt_iff_lt.1 (by simpa using gt))
      · exact below x mem

theorem sortBy_ascending (cmp : α → α → Ordering) [TransCmp cmp] (as : List α) :
    (sortBy cmp as).Pairwise fun x y => (cmp x y).isLE := by
  induction as with
  | nil => exact .nil
  | cons a as ih => exact insertSorted_ascending ih

/-- Elements of which no two compare equal end up in strictly ascending order. -/
theorem sortBy_strictly_ascending {cmp : α → α → Ordering} [TransCmp cmp] {as : List α}
    (distinct : as.Pairwise fun x y => cmp x y ≠ .eq) :
    (sortBy cmp as).Pairwise fun x y => cmp x y = .lt := by
  have apart : (sortBy cmp as).Pairwise fun x y => cmp x y ≠ .eq :=
    (sortBy_perm cmp as).symm.pairwise distinct fun ne eq => ne (OrientedCmp.eq_symm eq)
  refine ((sortBy_ascending cmp as).and apart).imp fun ⟨le, ne⟩ => ?_
  rcases Ordering.isLE_iff_eq_lt_or_eq_eq.1 le with lt | eq
  · exact lt
  · exact (ne eq).elim

/-- A strictly ascending list has no element twice. -/
theorem nodup_of_ascending {cmp : α → α → Ordering} [ReflCmp cmp] {as : List α}
    (ascending : as.Pairwise fun x y => cmp x y = .lt) : as.Nodup := by
  refine ascending.imp fun {x y} lt same => ?_
  have equal : cmp x x = .eq := ReflCmp.compare_self
  rw [← same, equal] at lt
  cases lt

/-- Two strictly ascending lists with the same elements are the same list. -/
theorem eq_of_ascending {cmp : α → α → Ordering} [OrientedCmp cmp] {as bs : List α}
    (ascending : as.Pairwise fun x y => cmp x y = .lt)
    (ascending' : bs.Pairwise fun x y => cmp x y = .lt) (same : ∀ a, a ∈ as ↔ a ∈ bs) :
    as = bs := by
  have perm : as.Perm bs := (List.perm_ext_iff_of_nodup (nodup_of_ascending ascending)
    (nodup_of_ascending ascending')).2 same
  refine perm.eq_of_pairwise (fun a b _ _ below above => ?_) ascending ascending'
  exact (OrientedCmp.not_lt_of_lt below above).elim

/-! ## Parts of a sorted list -/

/-- Elements skipped at the front fail a condition that is exclusive with the
reason for skipping. -/
theorem filter_dropWhile {p q : α → Bool} {as : List α}
    (exclusive : ∀ a ∈ as, p a = true → q a = false) :
    (as.dropWhile q).filter p = as.filter p := by
  induction as with
  | nil => rfl
  | cons a as ih =>
    have rest := ih fun b mem => exclusive b (List.mem_cons_of_mem _ mem)
    rw [List.dropWhile_cons]
    split
    · rename_i skipped
      rw [rest, List.filter_cons_of_neg]
      intro kept
      rw [exclusive a List.mem_cons_self kept] at skipped
      cases skipped
    · rfl

/-- Elements cut off at the back fail a condition that implies one which, once
failed, stays failed. -/
theorem filter_takeWhile {p q : α → Bool} {as : List α}
    (closed : as.Pairwise fun a b => q b = true → q a = true)
    (implied : ∀ a ∈ as, p a = true → q a = true) :
    (as.takeWhile q).filter p = as.filter p := by
  induction as with
  | nil => rfl
  | cons a as ih =>
    obtain ⟨later, rest⟩ := List.pairwise_cons.1 closed
    rw [List.takeWhile_cons]
    split
    · rw [List.filter_cons, List.filter_cons,
        ih rest fun b mem => implied b (List.mem_cons_of_mem _ mem)]
    · rename_i failed
      refine (List.filter_eq_nil_iff.2 fun b mem kept => failed ?_).symm
      have holds := implied b mem kept
      rcases List.mem_cons.1 mem with rfl | mem
      · exact holds
      · exact later b mem holds

/-- After the front of a sorted list nothing satisfies the condition that the
front satisfies. -/
theorem forall_mem_dropWhile {q : α → Bool} {as : List α}
    (closed : as.Pairwise fun a b => q b = true → q a = true) :
    ∀ a ∈ as.dropWhile q, q a = false := by
  induction as with
  | nil => simp
  | cons a as ih =>
    obtain ⟨later, rest⟩ := List.pairwise_cons.1 closed
    rw [List.dropWhile_cons]
    split
    · exact ih rest
    · rename_i failed
      intro b mem
      rcases List.mem_cons.1 mem with rfl | mem
      · exact Bool.eq_false_iff.2 failed
      · exact Bool.eq_false_iff.2 fun holds => failed (later b mem holds)

/-! ## Two lists, position by position -/

theorem exists_of_forall₂ {r : α → β → Prop} {as : List α} {bs : List β}
    (related : List.Forall₂ r as bs) {a : α} (mem : a ∈ as) : ∃ b ∈ bs, r a b := by
  induction related with
  | nil => cases mem
  | cons first _ ih =>
    rcases List.mem_cons.1 mem with rfl | mem
    · exact ⟨_, List.mem_cons_self, first⟩
    · obtain ⟨b, inside, related⟩ := ih mem
      exact ⟨b, List.mem_cons_of_mem _ inside, related⟩

/-- Strictly sorted lists whose elements answer to each other, in agreement
with the order, are related position by position. -/
theorem forall₂_of_ascending {r : α → β → Prop} {cmp : α → α → Ordering} [OrientedCmp cmp]
    {cmp' : β → β → Ordering} {as : List α} {bs : List β}
    (agree : ∀ a b a' b', r a b → r a' b' → cmp a a' = cmp' b b')
    (ascending : as.Pairwise fun a a' => cmp a a' = .lt)
    (ascending' : bs.Pairwise fun b b' => cmp' b b' = .lt)
    (left : ∀ a ∈ as, ∃ b ∈ bs, r a b) (right : ∀ b ∈ bs, ∃ a ∈ as, r a b) :
    List.Forall₂ r as bs := by
  have irrefl : ∀ a, cmp a a ≠ .lt := fun a lt => OrientedCmp.not_lt_of_lt lt lt
  induction as generalizing bs with
  | nil =>
    cases bs with
    | nil => exact .nil
    | cons b bs =>
      obtain ⟨a, mem, _⟩ := right b List.mem_cons_self
      cases mem
  | cons a as ih =>
    obtain ⟨below, rest⟩ := List.pairwise_cons.1 ascending
    cases bs with
    | nil =>
      obtain ⟨b, mem, _⟩ := left a List.mem_cons_self
      cases mem
    | cons b bs =>
      obtain ⟨below', rest'⟩ := List.pairwise_cons.1 ascending'
      -- the two heads can only answer to each other
      have heads : r a b := by
        obtain ⟨b', mem, related⟩ := left a List.mem_cons_self
        rcases List.mem_cons.1 mem with rfl | later
        · exact related
        · obtain ⟨a', mem', related'⟩ := right b List.mem_cons_self
          have lt : cmp a' a = .lt := by
            rw [agree a' b a b' related' related]
            exact below' b' later
          rcases List.mem_cons.1 mem' with rfl | later'
          · exact (irrefl _ lt).elim
          · exact (OrientedCmp.not_lt_of_lt (below a' later') lt).elim
      refine .cons heads (ih rest rest' (fun a' mem => ?_) fun b' mem => ?_)
      · obtain ⟨b', mem', related⟩ := left a' (List.mem_cons_of_mem _ mem)
        rcases List.mem_cons.1 mem' with rfl | later
        · have lt := below a' mem
          rw [agree a b' a' b' heads related, ← agree a b' a b' heads heads] at lt
          exact (irrefl a lt).elim
        · exact ⟨b', later, related⟩
      · obtain ⟨a', mem', related⟩ := right b' (List.mem_cons_of_mem _ mem)
        rcases List.mem_cons.1 mem' with rfl | later
        · have lt := below' b' mem
          rw [← agree a' b a' b' heads related] at lt
          exact (irrefl a' lt).elim
        · exact ⟨a', later, related⟩

end PropertyGraph
