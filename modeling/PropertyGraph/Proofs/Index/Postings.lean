import PropertyGraph.Index.Postings
import PropertyGraph.Proofs.Ordered.Set

/-!
# What postings hold

`holds` is the view of an index: posting a member adds one fact to it and
withdrawing one takes one out. The lists that are read from the index, the
members of a key and all postings, agree with that view and are strictly
ascending.
-/

namespace PropertyGraph

open Std

namespace Postings

variable {κ : Type u} {ι : Type v} [Ord κ] [Ord ι]

/-! ## Changes -/

/-- Keys that compare equal have the same members. -/
theorem holds_congr [TransOrd κ] {k k' : κ} (same : compare k k' = .eq) (p : Postings κ ι)
    (m : ι) : p.holds k m = p.holds k' m := by
  have found : p.sets.get? k = p.sets.get? k' := OrderedMap.lookup_congr same p.sets.entries
  rw [holds, holds, found]

theorem holds_post [TransOrd κ] [TransOrd ι] (p : Postings κ ι) (k : κ) (m : ι) (q : κ)
    (n : ι) :
    (p.post k m).holds q n = ((compare k q == .eq && compare m n == .eq) || p.holds q n) := by
  rw [holds, post, OrderedMap.get?_alter]
  by_cases same : compare k q = .eq
  · rw [if_pos same, Option.getD_some, OrderedSet.contains_insert, ← holds,
      holds_congr same, same]
    simp
  · rw [if_neg same, ← holds]
    simp [same]

/-- Dropping an emptied set loses no member. -/
theorem getD_without [TransOrd ι] (set : OrderedSet ι) (m : ι) :
    (without set m).getD ∅ = set.erase m := by
  rw [without]
  split
  · rename_i emptied
    exact (OrderedSet.eq_empty emptied).symm
  · rw [Option.getD_some]

theorem holds_withdraw [TransOrd κ] [TransOrd ι] (p : Postings κ ι) (k : κ) (m : ι) (q : κ)
    (n : ι) :
    (p.withdraw k m).holds q n =
      (!(compare k q == .eq && compare m n == .eq) && p.holds q n) := by
  rw [holds, withdraw, OrderedMap.get?_alter]
  by_cases same : compare k q = .eq
  · rw [if_pos same, ← holds_congr same, holds, same]
    cases p.sets.get? k with
    | none => simp
    | some set =>
      rw [Option.bind_some, getD_without, OrderedSet.contains_erase, Option.getD_some]
      simp
  · rw [if_neg same, ← holds]
    simp [same]

theorem holds_post_iff [TransOrd κ] [TransOrd ι] [LawfulEqOrd ι] {p : Postings κ ι}
    {k q : κ} {m n : ι} :
    (p.post k m).holds q n = true ↔ (compare k q = .eq ∧ n = m) ∨ p.holds q n = true := by
  have same : compare m n = .eq ↔ n = m := Std.compare_eq_iff_eq.trans eq_comm
  rw [holds_post, Bool.or_eq_true, Bool.and_eq_true, beq_iff_eq, beq_iff_eq, same]

theorem holds_withdraw_iff [TransOrd κ] [TransOrd ι] [LawfulEqOrd ι] {p : Postings κ ι}
    {k q : κ} {m n : ι} :
    (p.withdraw k m).holds q n = true ↔ p.holds q n = true ∧ ¬(compare k q = .eq ∧ n = m) := by
  have same : compare m n = .eq ↔ n = m := Std.compare_eq_iff_eq.trans eq_comm
  rw [holds_withdraw, Bool.and_eq_true, Bool.not_eq_true', Bool.eq_false_iff, ne_eq,
    Bool.and_eq_true, beq_iff_eq, beq_iff_eq, same, and_comm]

/-! ## Members of a key -/

theorem mem_members_iff [TransOrd ι] [LawfulEqOrd ι] {p : Postings κ ι} {k : κ} {m : ι} :
    m ∈ p.members k ↔ p.holds k m = true :=
  OrderedSet.mem_toList_iff

theorem members_ascending (p : Postings κ ι) (k : κ) :
    (p.members k).Pairwise fun a b => compare a b = .lt :=
  OrderedSet.toList_ascending _

/-! ## All postings -/

/-- The order of postings: by key and then by member. -/
def order (a b : κ × ι) : Ordering := compareLex (compareOn Prod.fst) (compareOn Prod.snd) a b

instance [TransOrd κ] [TransOrd ι] : TransCmp (order : κ × ι → κ × ι → Ordering) :=
  inferInstanceAs (TransCmp (compareLex (compareOn Prod.fst) (compareOn Prod.snd)))

theorem order_eq (a b : κ × ι) :
    order a b = (compare a.1 b.1).then (compare a.2 b.2) := rfl

theorem mem_toList_iff {p : Postings κ ι} {k : κ} {m : ι} :
    (k, m) ∈ p.toList ↔ ∃ set, (k, set) ∈ p.sets.entries ∧ m ∈ set.toList := by
  rw [toList, List.mem_flatMap]
  constructor
  · intro given
    rcases given with ⟨⟨k', set⟩, entry, mem⟩
    obtain ⟨m', mem, same⟩ := List.mem_map.1 mem
    cases same
    exact ⟨set, entry, mem⟩
  · intro given
    rcases given with ⟨set, entry, mem⟩
    exact ⟨(k, set), entry, List.mem_map.2 ⟨m, mem, rfl⟩⟩

theorem holds_of_mem_toList [TransOrd κ] [TransOrd ι] {p : Postings κ ι} {k : κ} {m : ι}
    (mem : (k, m) ∈ p.toList) : p.holds k m = true := by
  obtain ⟨set, entry, mem⟩ := mem_toList_iff.1 mem
  rw [holds, OrderedMap.get?_of_mem entry, Option.getD_some]
  exact OrderedSet.contains_eq_true_iff.2 ⟨m, mem, ReflCmp.compare_self⟩

/-- What is held is listed, under a key that compares equal. -/
theorem exists_mem_toList [TransOrd κ] [TransOrd ι] [LawfulEqOrd ι] {p : Postings κ ι}
    {k : κ} {m : ι} (held : p.holds k m = true) :
    ∃ k', (k', m) ∈ p.toList ∧ compare k' k = .eq := by
  rw [holds] at held
  cases found : p.sets.get? k with
  | none =>
    rw [found] at held
    cases held
  | some set =>
    rw [found, Option.getD_some] at held
    obtain ⟨k', entry, same⟩ := OrderedMap.get?_eq_some_iff.1 found
    exact ⟨k', mem_toList_iff.2 ⟨set, entry, OrderedSet.mem_toList_iff.2 held⟩, same⟩

theorem toList_ascending [TransOrd κ] [TransOrd ι] (p : Postings κ ι) :
    p.toList.Pairwise fun a b => order a b = .lt := by
  refine List.pairwise_flatMap.2 ⟨fun e _ => ?_, ?_⟩
  · refine List.pairwise_map.2 (e.2.toList_ascending.imp fun below => ?_)
    have self : compare e.1 e.1 = .eq := ReflCmp.compare_self
    rw [order_eq, self, below]
    rfl
  · refine p.sets.ascending.imp fun below a amem b bmem => ?_
    obtain ⟨_, _, rfl⟩ := List.mem_map.1 amem
    obtain ⟨_, _, rfl⟩ := List.mem_map.1 bmem
    rw [order_eq, below]
    rfl

/-- Withdrawing a member from under a key takes out the postings equal to that one. -/
theorem toList_withdraw [TransOrd κ] [TransOrd ι] (p : Postings κ ι) (k : κ) (m : ι) :
    (p.withdraw k m).toList =
      p.toList.filter fun e => !(compare k e.1 == .eq && compare m e.2 == .eq) := by
  rw [toList, withdraw, OrderedMap.entries_alter rfl, List.filterMap_eq_flatMap_toList,
    List.flatMap_assoc, toList, List.filter_flatMap]
  refine List.flatMap_congr fun e _ => ?_
  rw [List.filter_map]
  by_cases same : compare k e.1 = .eq
  · have left := congrArg OrderedSet.toList (getD_without e.2 m)
    rw [OrderedSet.toList_erase] at left
    simp only [Function.comp_def, same, beq_self_eq_true, Bool.true_and, ← left, if_pos,
      Option.bind_some]
    cases without e.2 m with
    | none => rfl
    | some rest => exact List.append_nil _
  · have apart : (compare k e.1 == .eq) = false := beq_eq_false_iff_ne.2 same
    rw [if_neg same, Function.comp_def, List.filter_eq_self.2 fun _ _ => by rw [apart]; rfl]
    exact List.append_nil _

/-- What is held is what is listed, under a key that compares equal. -/
theorem exists_mem_toList_iff [TransOrd κ] [TransOrd ι] [LawfulEqOrd ι] {p : Postings κ ι}
    {k : κ} {m : ι} :
    (∃ k', (k', m) ∈ p.toList ∧ compare k' k = .eq) ↔ p.holds k m = true := by
  constructor
  · intro given
    rcases given with ⟨k', listed, same⟩
    rw [← holds_congr same]
    exact holds_of_mem_toList listed
  · exact exists_mem_toList

/-! ## Keys without members -/

/-- No key is kept without a member. -/
def Occupied (p : Postings κ ι) : Prop := ∀ set ∈ p.sets.values, set.toList ≠ []

theorem Occupied.empty : (empty : Postings κ ι).Occupied := by
  intro set mem
  cases mem

theorem Occupied.post [TransOrd κ] [TransOrd ι] {p : Postings κ ι} (occupied : p.Occupied)
    (k : κ) (m : ι) : (p.post k m).Occupied := by
  intro set mem
  rcases OrderedMap.of_mem_values_alter mem with put | old
  · cases put
    have member : (((p.sets.get? k).getD ∅).insert m).contains m = true := by
      simp [OrderedSet.contains_insert, ReflCmp.compare_self]
    rcases OrderedSet.contains_eq_true_iff.1 member with ⟨_, listed, _⟩
    exact List.ne_nil_of_mem listed
  · exact occupied set old

/-- A key whose last member is withdrawn is dropped with it. -/
theorem Occupied.withdraw [TransOrd κ] [TransOrd ι] {p : Postings κ ι} (occupied : p.Occupied)
    (k : κ) (m : ι) : (p.withdraw k m).Occupied := by
  intro set mem
  rcases OrderedMap.of_mem_values_alter mem with put | old
  · rcases Option.bind_eq_some_iff.1 put with ⟨before, _, left⟩
    rw [without] at left
    split at left
    · cases left
    · rename_i left_over
      cases left
      exact fun none => left_over (OrderedSet.isEmpty_iff.2 none)
  · exact occupied set old

/-! ## Counting postings -/

theorem length_toList (p : Postings κ ι) : p.toList.length = p.sets.total OrderedSet.size := by
  rw [toList, List.length_flatMap, OrderedMap.total]
  simp only [List.length_map, OrderedSet.size_eq_length]

theorem weight_size (set : Option (OrderedSet ι)) :
    OrderedMap.weight OrderedSet.size set = (set.getD ∅).size := by
  cases set <;> rfl

theorem length_toList_post [TransOrd κ] [TransOrd ι] (p : Postings κ ι) (k : κ) (m : ι) :
    (p.post k m).toList.length =
      if p.holds k m then p.toList.length else p.toList.length + 1 := by
  have change := p.sets.total_alter OrderedSet.size k fun set => some ((set.getD ∅).insert m)
  rw [weight_size, weight_size, Option.getD_some, OrderedSet.size_insert] at change
  rw [length_toList, length_toList, holds]
  show (p.sets.alter k _).total OrderedSet.size = _
  split at change
  · rename_i held
    rw [if_pos held]
    omega
  · rename_i absent
    rw [if_neg absent]
    omega

/-- Withdrawing a member takes one posting away if there was one to take. -/
theorem length_toList_withdraw [TransOrd κ] [TransOrd ι] (p : Postings κ ι) (k : κ) (m : ι) :
    (p.withdraw k m).toList.length =
      if p.holds k m then p.toList.length - 1 else p.toList.length := by
  have change := p.sets.total_alter OrderedSet.size k fun set =>
    set.bind fun set => without set m
  rw [weight_size, weight_size] at change
  rw [length_toList, length_toList, holds]
  show (p.sets.alter k _).total OrderedSet.size = _
  cases found : p.sets.get? k with
  | none =>
    rw [found] at change
    simpa using change
  | some set =>
    rw [found, Option.bind_some, Option.getD_some, getD_without, OrderedSet.size_erase] at change
    rw [Option.getD_some]
    -- a set that has the member is not empty, so taking it out lowers the sum
    have nonempty : set.contains m = true → 0 < set.size := by
      intro held
      obtain ⟨b, mem, _⟩ := OrderedSet.contains_eq_true_iff.1 held
      rw [set.size_eq_length]
      exact List.length_pos_of_mem mem
    split at change
    · rename_i held
      rw [if_pos held]
      have := nonempty held
      omega
    · rename_i absent
      rw [if_neg absent]
      omega

end Postings

end PropertyGraph
