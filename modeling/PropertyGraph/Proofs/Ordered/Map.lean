import PropertyGraph.Ordered.Map
import Mathlib.Algebra.GroupWithZero.Nat
import Mathlib.Data.List.Basic

/-!
# Look-up and entries of ordered maps

A look-up and the list of entries say the same: a key is found with a value
exactly if an entry has that value under a key comparing equal. Where equal
keys are the same key, the entries are the graph of the look-up. A sum over the
values follows a change at one key.
-/

namespace PropertyGraph

open Std

namespace OrderedMap

variable {κ : Type u} {ν : Type v} {μ : Type w} [Ord κ]

/-! ## Entries -/

theorem mem_of_lookup {k : κ} {v : ν} {es : List (κ × ν)} (found : lookup k es = some v) :
    ∃ k', (k', v) ∈ es ∧ compare k' k = .eq := by
  induction es with
  | nil => cases found
  | cons e es ih =>
    rw [lookup] at found
    split at found
    · rename_i same
      cases found
      exact ⟨e.1, List.mem_cons_self, same⟩
    · obtain ⟨k', mem, same⟩ := ih found
      exact ⟨k', List.mem_cons_of_mem _ mem, same⟩

theorem lookup_of_mem [TransOrd κ] {k k' : κ} {v : ν} {es : List (κ × ν)}
    (ascending : es.Pairwise fun a b => compare a.1 b.1 = .lt)
    (mem : (k', v) ∈ es) (same : compare k' k = .eq) : lookup k es = some v := by
  induction es with
  | nil => cases mem
  | cons e es ih =>
    obtain ⟨below, rest⟩ := List.pairwise_cons.1 ascending
    rw [lookup]
    rcases List.mem_cons.1 mem with rfl | later
    · rw [if_pos same]
    · have lt : compare e.1 k = .lt := by
        rw [← TransCmp.congr_right same]
        exact below _ later
      rw [lt, if_neg (by decide)]
      exact ih rest later

/-- A key is found with the value of the entry whose key compares equal. -/
theorem get?_eq_some_iff [TransOrd κ] {m : OrderedMap κ ν} {k : κ} {v : ν} :
    m.get? k = some v ↔ ∃ k', (k', v) ∈ m.entries ∧ compare k' k = .eq :=
  ⟨mem_of_lookup, fun ⟨_, mem, same⟩ => lookup_of_mem m.ascending mem same⟩

theorem get?_of_mem [TransOrd κ] {m : OrderedMap κ ν} {k : κ} {v : ν}
    (mem : (k, v) ∈ m.entries) : m.get? k = some v :=
  get?_eq_some_iff.2 ⟨k, mem, ReflCmp.compare_self⟩

/-- Where equal keys are the same key, the entries are what look-ups find. -/
theorem mem_entries_iff [TransOrd κ] [LawfulEqOrd κ] {m : OrderedMap κ ν} {k : κ} {v : ν} :
    (k, v) ∈ m.entries ↔ m.get? k = some v := by
  constructor
  · exact get?_of_mem
  · intro found
    obtain ⟨k', mem, same⟩ := get?_eq_some_iff.1 found
    rw [LawfulEqOrd.eq_of_compare same] at mem
    exact mem

theorem mem_keys_iff [TransOrd κ] [LawfulEqOrd κ] {m : OrderedMap κ ν} {k : κ} :
    k ∈ m.keys ↔ m.contains k = true := by
  rw [contains, Option.isSome_iff_exists, keys, List.mem_map]
  constructor
  · intro given
    rcases given with ⟨⟨_, v⟩, mem, rfl⟩
    exact ⟨v, mem_entries_iff.1 mem⟩
  · intro given
    rcases given with ⟨v, found⟩
    exact ⟨(k, v), mem_entries_iff.2 found, rfl⟩

theorem mem_values_iff [TransOrd κ] {m : OrderedMap κ ν} {v : ν} :
    v ∈ m.values ↔ ∃ k, m.get? k = some v := by
  rw [values, List.mem_map]
  constructor
  · intro given
    rcases given with ⟨⟨k, _⟩, mem, rfl⟩
    exact ⟨k, get?_of_mem mem⟩
  · intro given
    rcases given with ⟨k, found⟩
    obtain ⟨k', mem, _⟩ := get?_eq_some_iff.1 found
    exact ⟨_, mem, rfl⟩

theorem keys_ascending (m : OrderedMap κ ν) :
    m.keys.Pairwise fun a b => compare a b = .lt :=
  List.pairwise_map.2 m.ascending

/-! ## Reading after a write -/

theorem contains_eq_true_iff {m : OrderedMap κ ν} {k : κ} :
    m.contains k = true ↔ ∃ v, m.get? k = some v :=
  Option.isSome_iff_exists

theorem get?_modify [TransOrd κ] (m : OrderedMap κ ν) (k : κ) (f : ν → ν) (q : κ) :
    (m.modify k f).get? q = if compare k q = .eq then (m.get? k).map f else m.get? q :=
  get?_alter m k _ q

theorem get?_insert_self [TransOrd κ] (m : OrderedMap κ ν) (k : κ) (v : ν) :
    (m.insert k v).get? k = some v := by
  rw [get?_insert, if_pos ReflCmp.compare_self]

theorem get?_insert_of_ne [TransOrd κ] [LawfulEqOrd κ] (m : OrderedMap κ ν) {k q : κ} (v : ν)
    (other : q ≠ k) : (m.insert k v).get? q = m.get? q := by
  rw [get?_insert, if_neg fun same => other (LawfulEqOrd.eq_of_compare same).symm]

theorem get?_erase_self [TransOrd κ] (m : OrderedMap κ ν) (k : κ) : (m.erase k).get? k = none := by
  rw [get?_erase, if_pos ReflCmp.compare_self]

theorem get?_erase_of_ne [TransOrd κ] [LawfulEqOrd κ] (m : OrderedMap κ ν) {k q : κ}
    (other : q ≠ k) : (m.erase k).get? q = m.get? q := by
  rw [get?_erase, if_neg fun same => other (LawfulEqOrd.eq_of_compare same).symm]

theorem get?_mapValues [TransOrd κ] [LawfulEqOrd κ] (m : OrderedMap κ ν) (f : κ → ν → μ)
    (k : κ) : (m.mapValues f).get? k = (m.get? k).map (f k) := by
  have walk : ∀ es : List (κ × ν),
      lookup k (es.map fun e => (e.1, f e.1 e.2)) = (lookup k es).map (f k) := by
    intro es
    induction es with
    | nil => rfl
    | cons e es ih =>
      rw [List.map_cons, lookup, lookup.eq_2 k e es, ih]
      by_cases same : compare e.1 k = .eq
      · rw [if_pos same, if_pos same, LawfulEqOrd.eq_of_compare same, Option.map_some]
      · rw [if_neg same, if_neg same]
  exact walk m.entries

theorem keys_mapValues (m : OrderedMap κ ν) (f : κ → ν → μ) : (m.mapValues f).keys = m.keys := by
  rw [keys, keys, mapValues, List.map_map]
  rfl

theorem contains_insert_iff [TransOrd κ] [LawfulEqOrd κ] {m : OrderedMap κ ν} {k q : κ} {v : ν} :
    (m.insert k v).contains q = true ↔ q = k ∨ m.contains q = true := by
  rw [contains, contains]
  by_cases same : q = k
  · subst same
    simp [get?_insert_self]
  · rw [get?_insert_of_ne m v same]
    simp [same]

theorem contains_erase_iff [TransOrd κ] [LawfulEqOrd κ] {m : OrderedMap κ ν} {k q : κ} :
    (m.erase k).contains q = true ↔ q ≠ k ∧ m.contains q = true := by
  rw [contains, contains]
  by_cases same : q = k
  · subst same
    simp [get?_erase_self]
  · rw [get?_erase_of_ne m same]
    simp [same]

/-! ## What holds of each entry -/

/-- A condition holds of every value together with each key it is found under. -/
def Each (P : κ → ν → Prop) (m : OrderedMap κ ν) : Prop := ∀ k v, m.get? k = some v → P k v

variable {P : κ → ν → Prop}

theorem Each.empty : (∅ : OrderedMap κ ν).Each P := by
  intro k v found
  cases found

theorem Each.insert [TransOrd κ] [LawfulEqOrd κ] {m : OrderedMap κ ν} (each : m.Each P) {k : κ}
    {v : ν} (new : P k v) : (m.insert k v).Each P := by
  intro q v' found
  by_cases same : q = k
  · subst same
    rw [get?_insert_self] at found
    cases found
    exact new
  · rw [get?_insert_of_ne m v same] at found
    exact each q v' found

theorem Each.erase [TransOrd κ] [LawfulEqOrd κ] {m : OrderedMap κ ν} (each : m.Each P) (k : κ) :
    (m.erase k).Each P := by
  intro q v found
  by_cases same : q = k
  · subst same
    rw [get?_erase_self] at found
    cases found
  · rw [get?_erase_of_ne m same] at found
    exact each q v found

/-! ## Entries after a write -/

/-- Where nothing is put under a key that is absent, a change at one key changes the
entries one by one. -/
theorem alterEntries_eq_filterMap [TransOrd κ] {k : κ} {f : Option ν → Option ν}
    (absent : f none = none) {es : List (κ × ν)}
    (ascending : es.Pairwise fun a b => compare a.1 b.1 = .lt) :
    alterEntries k f es = es.filterMap fun e =>
      if compare k e.1 = .eq then (f (some e.2)).map (Prod.mk e.1) else some e := by
  -- what lies above the key is left alone
  have above : ∀ {es : List (κ × ν)}, (∀ e ∈ es, compare k e.1 = .lt) →
      es = es.filterMap fun e =>
        if compare k e.1 = .eq then (f (some e.2)).map (Prod.mk e.1) else some e := by
    intro es lt
    rw [List.filterMap_congr fun e mem => by rw [lt e mem, if_neg (by decide)],
      List.filterMap_some]
  induction es with
  | nil => rw [alterEntries, absent, List.filterMap_nil]
  | cons e es ih =>
    obtain ⟨below, rest⟩ := List.pairwise_cons.1 ascending
    rw [alterEntries]
    split
    · rename_i lt
      rw [absent]
      refine above fun e' mem => ?_
      rcases List.mem_cons.1 mem with rfl | later
      · exact lt
      · exact TransCmp.lt_trans lt (below e' later)
    · rename_i same
      have tail := above fun e' mem => (TransCmp.congr_left same).trans (below e' mem)
      rw [List.filterMap_cons, if_pos same, ← tail]
      cases f (some e.2) <;> rfl
    · rename_i gt
      rw [List.filterMap_cons, gt, if_neg (by decide), ih rest]

theorem entries_alter [TransOrd κ] {f : Option ν → Option ν} (absent : f none = none)
    (m : OrderedMap κ ν) (k : κ) :
    (m.alter k f).entries = m.entries.filterMap fun e =>
      if compare k e.1 = .eq then (f (some e.2)).map (Prod.mk e.1) else some e :=
  alterEntries_eq_filterMap absent m.ascending

/-- A value after a change at one key is the one put there, or it was there before. -/
theorem of_mem_values_alter [TransOrd κ] {m : OrderedMap κ ν} {k : κ}
    {f : Option ν → Option ν} {v : ν} (mem : v ∈ (m.alter k f).values) :
    f (m.get? k) = some v ∨ v ∈ m.values := by
  rcases mem_values_iff.1 mem with ⟨q, found⟩
  rw [get?_alter] at found
  split at found
  · exact .inl found
  · exact .inr (mem_values_iff.2 ⟨q, found⟩)

/-- Erasing a key takes out the entries under it. -/
theorem entries_erase [TransOrd κ] (m : OrderedMap κ ν) (k : κ) :
    (m.erase k).entries = m.entries.filter fun e => compare k e.1 != .eq := by
  rw [erase, entries_alter rfl, ← List.filterMap_eq_filter]
  refine List.filterMap_congr fun e _ => ?_
  by_cases same : compare k e.1 = .eq <;> simp [same, Option.guard]

/-! ## Sums over the values -/

/-- What an optional value weighs; nothing weighs nothing. -/
def weight (w : ν → Nat) (v : Option ν) : Nat := (v.map w).getD 0

/-- What the values of a map weigh together. -/
def total (w : ν → Nat) (m : OrderedMap κ ν) : Nat := (m.entries.map fun e => w e.2).sum

/-- Altering one entry moves a sum over all of them by what it moves the weight of that
one. -/
theorem sum_alterEntries [TransOrd κ] (w : ν → Nat) {k : κ} {f : Option ν → Option ν}
    {es : List (κ × ν)} (ascending : es.Pairwise fun a b => compare a.1 b.1 = .lt) :
    ((alterEntries k f es).map fun e => w e.2).sum + weight w (lookup k es) =
      (es.map fun e => w e.2).sum + weight w (f (lookup k es)) := by
  induction es with
  | nil =>
    rw [alterEntries, lookup]
    cases f none <;> simp [weight]
  | cons e es ih =>
    obtain ⟨below, rest⟩ := List.pairwise_cons.1 ascending
    rw [alterEntries]
    split
    · rename_i lt
      have absent : lookup k (e :: es) = none := by
        refine lookup_eq_none_of_lt fun e' mem => ?_
        rcases List.mem_cons.1 mem with rfl | mem
        · exact lt
        · exact TransCmp.lt_trans lt (below e' mem)
      rw [absent]
      cases f none <;> simp [weight, Nat.add_comm]
    · rename_i same
      have found : lookup k (e :: es) = some e.2 := by
        rw [lookup, OrientedCmp.eq_comm.1 same, if_pos rfl]
      rw [found]
      cases f (some e.2) <;> simp [weight, Nat.add_comm, Nat.add_left_comm]
    · rename_i gt
      have skip : lookup k (e :: es) = lookup k es := by
        rw [lookup, OrientedCmp.gt_iff_lt.1 gt, if_neg (by decide)]
      have tail := ih rest
      rw [skip, List.map_cons, List.map_cons, List.sum_cons, List.sum_cons]
      omega

/-- A change at one key takes out the weight of the old value and puts in that
of the new one. -/
theorem total_alter [TransOrd κ] (w : ν → Nat) (m : OrderedMap κ ν) (k : κ)
    (f : Option ν → Option ν) :
    (m.alter k f).total w + weight w (m.get? k) = m.total w + weight w (f (m.get? k)) :=
  sum_alterEntries w m.ascending

theorem size_eq_total (m : OrderedMap κ ν) : m.size = m.total fun _ => 1 := by
  rw [size, total, List.map_const', List.sum_replicate_nat, Nat.mul_one]

theorem size_insert [TransOrd κ] (m : OrderedMap κ ν) (k : κ) (v : ν) :
    (m.insert k v).size = if m.contains k then m.size else m.size + 1 := by
  have change := total_alter (fun _ => 1) m k fun _ => some v
  rw [← size_eq_total m] at change
  rw [size_eq_total, insert, contains]
  cases found : m.get? k <;> simp_all [weight]

theorem size_erase [TransOrd κ] (m : OrderedMap κ ν) (k : κ) :
    (m.erase k).size = if m.contains k then m.size - 1 else m.size := by
  have change := total_alter (fun _ => 1) m k fun _ => none
  rw [← size_eq_total m] at change
  rw [size_eq_total, erase, contains]
  cases found : m.get? k with
  | none => simp_all [weight]
  | some v =>
    simp only [found, weight, Option.map_some, Option.getD_some, Option.map_none,
      Option.getD_none] at change
    simp only [Option.isSome_some, if_true]
    omega

theorem size_insert_of_get? [TransOrd κ] {m : OrderedMap κ ν} {k : κ} {v : ν}
    (found : m.get? k = some v) (v' : ν) : (m.insert k v').size = m.size := by
  rw [size_insert, if_pos (contains_eq_true_iff.2 ⟨v, found⟩)]

theorem size_erase_of_get? [TransOrd κ] {m : OrderedMap κ ν} {k : κ} {v : ν}
    (found : m.get? k = some v) : (m.erase k).size + 1 = m.size := by
  obtain ⟨_, mem, _⟩ := get?_eq_some_iff.1 found
  have some : 0 < m.size := List.length_pos_of_mem mem
  rw [size_erase, if_pos (contains_eq_true_iff.2 ⟨v, found⟩)]
  omega

end OrderedMap

end PropertyGraph
