/-!
# Ordered maps

A finite map is kept as the list of its entries in strictly ascending key
order, so two maps with the same entries are the same value. Keys are told
apart by `compare` alone: two keys that compare equal name one entry, and the
entry keeps the key that opened it. Every change is an `alter` at one key, and
`get?_alter` says what a look-up sees after it.
-/

namespace PropertyGraph

open Std

/-- A finite map, entries in strictly ascending key order. -/
structure OrderedMap (κ : Type u) (ν : Type v) [Ord κ] where
  entries : List (κ × ν)
  ascending : entries.Pairwise fun a b => compare a.1 b.1 = .lt

namespace OrderedMap

variable {κ : Type u} {ν : Type v} {μ : Type w} [Ord κ]

/-- The map without entries. -/
def empty : OrderedMap κ ν := ⟨[], .nil⟩

instance : EmptyCollection (OrderedMap κ ν) := ⟨empty⟩

instance : Inhabited (OrderedMap κ ν) := ⟨empty⟩

/-! ## Reading -/

/-- The value in the first of `es` whose key compares equal to `k`. -/
def lookup (k : κ) : List (κ × ν) → Option ν
  | [] => none
  | e :: es => if compare e.1 k = .eq then some e.2 else lookup k es

/-- The value under a key. -/
def get? (m : OrderedMap κ ν) (k : κ) : Option ν := lookup k m.entries

/-- Whether some entry has a key comparing equal to `k`. -/
def contains (m : OrderedMap κ ν) (k : κ) : Bool := (m.get? k).isSome

/-- Keys in ascending order. -/
def keys (m : OrderedMap κ ν) : List κ := m.entries.map Prod.fst

/-- Values in ascending order of their keys. -/
def values (m : OrderedMap κ ν) : List ν := m.entries.map Prod.snd

/-- Number of entries. -/
def size (m : OrderedMap κ ν) : Nat := m.entries.length

/-- Whether there is no entry. -/
def isEmpty (m : OrderedMap κ ν) : Bool := m.entries.isEmpty

/-- The entries whose keys do not exceed `k`. -/
def upTo (m : OrderedMap κ ν) (k : κ) : List (κ × ν) :=
  m.entries.takeWhile fun e => compare e.1 k != .gt

/-- The entries whose keys are not below `k`. -/
def onwards (m : OrderedMap κ ν) (k : κ) : List (κ × ν) :=
  m.entries.dropWhile fun e => compare e.1 k == .lt

/-! ## Writing -/

/-- Replace what `es` holds under `k` by `f` of it, at the place where `k`
belongs. An entry that stays keeps its key. -/
def alterEntries (k : κ) (f : Option ν → Option ν) : List (κ × ν) → List (κ × ν)
  | [] => match f none with
    | none => []
    | some v => [(k, v)]
  | e :: es => match compare k e.1 with
    | .lt => match f none with
      | none => e :: es
      | some v => (k, v) :: e :: es
    | .eq => match f (some e.2) with
      | none => es
      | some v => (e.1, v) :: es
    | .gt => e :: alterEntries k f es

/-- Altering opens no key other than the one given. -/
theorem key_of_mem_alterEntries {k : κ} {f : Option ν → Option ν} {es : List (κ × ν)}
    {e : κ × ν} (h : e ∈ alterEntries k f es) : e.1 = k ∨ ∃ e' ∈ es, e'.1 = e.1 := by
  induction es with
  | nil =>
    unfold alterEntries at h
    split at h
    · cases h
    · simp only [List.mem_singleton] at h
      exact .inl (by rw [h])
  | cons x xs ih =>
    unfold alterEntries at h
    split at h
    · split at h
      · exact .inr ⟨e, h, rfl⟩
      · rcases List.mem_cons.1 h with rfl | h
        · exact .inl rfl
        · exact .inr ⟨e, h, rfl⟩
    · split at h
      · exact .inr ⟨e, List.mem_cons_of_mem _ h, rfl⟩
      · rcases List.mem_cons.1 h with rfl | h
        · exact .inr ⟨x, List.mem_cons_self, rfl⟩
        · exact .inr ⟨e, List.mem_cons_of_mem _ h, rfl⟩
    · rcases List.mem_cons.1 h with rfl | h
      · exact .inr ⟨e, List.mem_cons_self, rfl⟩
      · rcases ih h with same | ⟨e', mem, same⟩
        · exact .inl same
        · exact .inr ⟨e', List.mem_cons_of_mem _ mem, same⟩

/-- Altering keeps the entries in order. -/
theorem ascending_alterEntries [TransOrd κ] {k : κ} {f : Option ν → Option ν}
    {es : List (κ × ν)} (h : es.Pairwise fun a b => compare a.1 b.1 = .lt) :
    (alterEntries k f es).Pairwise fun a b => compare a.1 b.1 = .lt := by
  induction es with
  | nil =>
    unfold alterEntries
    split <;> simp
  | cons x xs ih =>
    obtain ⟨below, rest⟩ := List.pairwise_cons.1 h
    unfold alterEntries
    split
    · rename_i lt
      split
      · exact h
      · refine List.pairwise_cons.2 ⟨fun e mem => ?_, h⟩
        rcases List.mem_cons.1 mem with rfl | mem
        · exact lt
        · exact TransCmp.lt_trans lt (below e mem)
    · split
      · exact rest
      · exact List.pairwise_cons.2 ⟨fun e mem => below e mem, rest⟩
    · rename_i gt
      refine List.pairwise_cons.2 ⟨fun e mem => ?_, ih rest⟩
      rcases key_of_mem_alterEntries mem with same | ⟨e', mem', same⟩
      · rw [same]
        exact OrientedCmp.gt_iff_lt.1 gt
      · rw [← same]
        exact below e' mem'

/-- Replace what the map holds under `k` by `f` of it. -/
def alter [TransOrd κ] (m : OrderedMap κ ν) (k : κ) (f : Option ν → Option ν) :
    OrderedMap κ ν :=
  ⟨alterEntries k f m.entries, ascending_alterEntries m.ascending⟩

/-- Put a value under a key. -/
def insert [TransOrd κ] (m : OrderedMap κ ν) (k : κ) (v : ν) : OrderedMap κ ν :=
  m.alter k fun _ => some v

/-- Remove the entry of a key. -/
def erase [TransOrd κ] (m : OrderedMap κ ν) (k : κ) : OrderedMap κ ν :=
  m.alter k fun _ => none

/-- Change the value under a key, if there is one. -/
def modify [TransOrd κ] (m : OrderedMap κ ν) (k : κ) (f : ν → ν) : OrderedMap κ ν :=
  m.alter k (Option.map f)

/-- The map of a list of pairs, the last pair for a key winning. -/
def ofList [TransOrd κ] (pairs : List (κ × ν)) : OrderedMap κ ν :=
  pairs.foldl (fun m e => m.insert e.1 e.2) empty

/-- Change every value, knowing its key. -/
def mapValues (m : OrderedMap κ ν) (f : κ → ν → μ) : OrderedMap κ μ :=
  ⟨m.entries.map fun e => (e.1, f e.1 e.2), List.pairwise_map.2 m.ascending⟩

/-! ## Reading after a write -/

/-- A key below every entry is not found. -/
theorem lookup_eq_none_of_lt [TransOrd κ] {k : κ} {es : List (κ × ν)}
    (h : ∀ e ∈ es, compare k e.1 = .lt) : lookup k es = none := by
  induction es with
  | nil => rfl
  | cons x xs ih =>
    have gt : compare x.1 k = .gt := OrientedCmp.gt_iff_lt.2 (h x List.mem_cons_self)
    rw [lookup, gt, if_neg (by decide)]
    exact ih fun e mem => h e (List.mem_cons_of_mem _ mem)

/-- Keys that compare equal are looked up alike. -/
theorem lookup_congr [TransOrd κ] {k k' : κ} (h : compare k k' = .eq) (es : List (κ × ν)) :
    lookup k es = lookup k' es := by
  induction es with
  | nil => rfl
  | cons x xs ih => rw [lookup, lookup, TransCmp.congr_right h, ih]

/-- Altering the entry of a key changes what is found under that key and no other. -/
theorem lookup_alterEntries [TransOrd κ] {k : κ} {f : Option ν → Option ν}
    {es : List (κ × ν)} (h : es.Pairwise fun a b => compare a.1 b.1 = .lt) (q : κ) :
    lookup q (alterEntries k f es) =
      if compare k q = .eq then f (lookup k es) else lookup q es := by
  induction es with
  | nil =>
    unfold alterEntries
    cases hf : f none <;> simp [lookup, hf]
  | cons x xs ih =>
    obtain ⟨below, rest⟩ := List.pairwise_cons.1 h
    unfold alterEntries
    split
    · rename_i lt
      have absent : lookup k (x :: xs) = none := by
        refine lookup_eq_none_of_lt fun e mem => ?_
        rcases List.mem_cons.1 mem with rfl | mem
        · exact lt
        · exact TransCmp.lt_trans lt (below e mem)
      rw [absent]
      cases hf : f none with
      | none =>
        by_cases hq : compare k q = .eq
        · rw [if_pos hq, ← lookup_congr hq, absent]
        · rw [if_neg hq]
      | some v => rw [lookup]
    · rename_i eq
      have found : lookup k (x :: xs) = some x.2 := by
        rw [lookup, OrientedCmp.eq_comm.1 eq, if_pos rfl]
      have same : compare x.1 q = compare k q := (TransCmp.congr_left eq).symm
      rw [found]
      cases hf : f (some x.2) with
      | none =>
        rw [lookup.eq_2 q x xs, same]
        by_cases hq : compare k q = .eq
        · have above : ∀ e ∈ xs, compare q e.1 = .lt := fun e mem => by
            rw [← TransCmp.congr_left hq, TransCmp.congr_left eq]
            exact below e mem
          rw [if_pos hq, lookup_eq_none_of_lt above]
        · rw [if_neg hq, if_neg hq]
      | some v =>
        rw [lookup, lookup.eq_2 q x xs, same]
        by_cases hq : compare k q = .eq
        · rw [if_pos hq, if_pos hq]
        · rw [if_neg hq, if_neg hq, if_neg hq]
    · rename_i gt
      have lt : compare x.1 k = .lt := OrientedCmp.gt_iff_lt.1 gt
      have skip : lookup k (x :: xs) = lookup k xs := by
        rw [lookup, lt, if_neg (by decide)]
      rw [lookup, ih rest, skip, lookup.eq_2 q x xs]
      by_cases hq : compare k q = .eq
      · rw [← TransCmp.congr_right hq, lt, if_neg (by decide), if_pos hq, if_pos hq]
      · rw [if_neg hq, if_neg hq]

/-- What a look-up sees after `alter`. -/
theorem get?_alter [TransOrd κ] (m : OrderedMap κ ν) (k : κ) (f : Option ν → Option ν)
    (q : κ) : (m.alter k f).get? q = if compare k q = .eq then f (m.get? k) else m.get? q :=
  lookup_alterEntries m.ascending q

theorem get?_insert [TransOrd κ] (m : OrderedMap κ ν) (k : κ) (v : ν) (q : κ) :
    (m.insert k v).get? q = if compare k q = .eq then some v else m.get? q :=
  get?_alter m k _ q

theorem get?_erase [TransOrd κ] (m : OrderedMap κ ν) (k q : κ) :
    (m.erase k).get? q = if compare k q = .eq then none else m.get? q :=
  get?_alter m k _ q

end OrderedMap

end PropertyGraph
