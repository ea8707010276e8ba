import PropertyGraph.Ordered.Set
import PropertyGraph.Proofs.Ordered.Map

/-!
# Membership in ordered sets

An ordered set lists its elements in strictly ascending order. Inserting adds
one element and erasing takes one out, equal elements counting as one.
-/

namespace PropertyGraph

open Std

namespace OrderedSet

variable {α : Type u} [Ord α]

/-! ## The list of elements -/

theorem toList_ascending (s : OrderedSet α) : s.toList.Pairwise fun a b => compare a b = .lt :=
  s.toMap.keys_ascending

theorem contains_eq_true_iff [TransOrd α] {s : OrderedSet α} {a : α} :
    s.contains a = true ↔ ∃ b ∈ s.toList, compare b a = .eq := by
  rw [contains, OrderedMap.contains_eq_true_iff]
  constructor
  · intro given
    rcases given with ⟨_, found⟩
    obtain ⟨b, mem, same⟩ := OrderedMap.get?_eq_some_iff.1 found
    exact ⟨b, List.mem_map.2 ⟨_, mem, rfl⟩, same⟩
  · intro given
    rcases given with ⟨_, mem, same⟩
    obtain ⟨⟨b, ⟨⟩⟩, entry, rfl⟩ := List.mem_map.1 mem
    exact ⟨(), OrderedMap.get?_eq_some_iff.2 ⟨b, entry, same⟩⟩

theorem mem_toList_iff [TransOrd α] [LawfulEqOrd α] {s : OrderedSet α} {a : α} :
    a ∈ s.toList ↔ s.contains a = true :=
  OrderedMap.mem_keys_iff

theorem size_eq_length (s : OrderedSet α) : s.size = s.toList.length :=
  (List.length_map _).symm

theorem isEmpty_iff {s : OrderedSet α} : s.isEmpty = true ↔ s.toList = [] := by
  simp [isEmpty, toList, OrderedMap.isEmpty, OrderedMap.keys]

theorem eq_empty {s : OrderedSet α} (empty : s.isEmpty = true) : s = ∅ := by
  obtain ⟨⟨entries, ascending⟩⟩ := s
  cases List.isEmpty_iff.1 empty
  rfl

/-! ## Changes -/

@[simp]
theorem contains_empty (a : α) : (∅ : OrderedSet α).contains a = false := rfl

theorem contains_insert [TransOrd α] (s : OrderedSet α) (a b : α) :
    (s.insert a).contains b = (compare a b == .eq || s.contains b) := by
  rw [contains, contains, OrderedMap.contains, OrderedMap.contains, insert,
    OrderedMap.get?_insert]
  by_cases same : compare a b = .eq
  · simp [same]
  · simp [same]

theorem contains_erase [TransOrd α] (s : OrderedSet α) (a b : α) :
    (s.erase a).contains b = (!(compare a b == .eq) && s.contains b) := by
  rw [contains, contains, OrderedMap.contains, OrderedMap.contains, erase,
    OrderedMap.get?_erase]
  by_cases same : compare a b = .eq
  · simp [same]
  · simp [same]

theorem toList_erase [TransOrd α] (s : OrderedSet α) (a : α) :
    (s.erase a).toList = s.toList.filter fun b => !(compare a b == .eq) := by
  rw [toList, toList, OrderedMap.keys, OrderedMap.keys, erase, OrderedMap.entries_erase,
    List.filter_map]
  rfl

/-- The set of a list has the elements of the list. -/
theorem mem_toList_ofList_iff [TransOrd α] [LawfulEqOrd α] {as : List α} {a : α} :
    a ∈ (ofList as).toList ↔ a ∈ as := by
  have walk : ∀ (rest : List α) (s : OrderedSet α),
      (rest.foldl insert s).contains a = true ↔ a ∈ rest ∨ s.contains a = true := by
    intro rest
    induction rest with
    | nil => simp
    | cons b rest ih =>
      intro s
      rw [List.foldl_cons, ih, contains_insert, Bool.or_eq_true, beq_iff_eq,
        Std.compare_eq_iff_eq, List.mem_cons, eq_comm (a := b), or_left_comm, or_assoc]
  have start : empty.contains a = false := contains_empty a
  rw [mem_toList_iff, ofList, walk, start]
  simp

theorem size_insert [TransOrd α] (s : OrderedSet α) (a : α) :
    (s.insert a).size = if s.contains a then s.size else s.size + 1 :=
  s.toMap.size_insert a ()

theorem size_erase [TransOrd α] (s : OrderedSet α) (a : α) :
    (s.erase a).size = if s.contains a then s.size - 1 else s.size :=
  s.toMap.size_erase a

end OrderedSet

end PropertyGraph
