import PropertyGraph.Proofs.Index.PropertyIndex

/-!
# What a history of changes leaves in an index

Nodes are filed under values and struck from under values in any order. The values
may be null, not-a-number, or equal to a value filed earlier without being the same;
a node may be filed twice, and struck from where it is not filed. Whatever the
changes were, the index lists in ascending order the pairs that were filed and not
struck since, values that are equal in index order counting as one. A scan filters
that list, and although it tests but one value of those that share an entry, it
answers as if it had tested the value of each node.
-/

namespace PropertyGraph

open Std
open Value (indexCompare)

namespace PropertyIndex

variable {index : PropertyIndex} {value : Value} {id : NodeId}

/-! ## Histories -/

/-- A change of an index. -/
inductive Change where
  | insert (value : Value) (id : NodeId)
  | remove (value : Value) (id : NodeId)

/-- The index after a change. -/
def afterChange (index : PropertyIndex) : Change → PropertyIndex
  | .insert value id => index.insert value id
  | .remove value id => index.remove value id

/-- The index that a list of changes leads to. -/
def afterChanges (index : PropertyIndex) (changes : List Change) : PropertyIndex :=
  changes.foldl afterChange index

/-- No change strikes the node from under a value equal to this one. -/
def Spares (changes : List Change) (value : Value) (id : NodeId) : Prop :=
  ∀ struck, .remove struck id ∈ changes → compare struck value ≠ .eq

/-- The node was filed under the value, which is not null, and was not struck from
there since. -/
def Filed (changes : List Change) (value : Value) (id : NodeId) : Prop :=
  ∃ earlier later, changes = earlier ++ .insert value id :: later ∧ value.isNull = false ∧
    Spares later value id

variable {change : Change} {changes : List Change}

theorem spares_congr {value' : Value} (same : compare value value' = .eq) :
    Spares changes value id ↔ Spares changes value' id := by
  simp only [Spares, TransCmp.congr_right same]

theorem spares_cons_insert {filed : Value} {node : NodeId} :
    Spares (.insert filed node :: changes) value id ↔ Spares changes value id := by
  simp [Spares]

theorem spares_cons_remove {struck : Value} {node : NodeId} :
    Spares (.remove struck node :: changes) value id ↔
      ¬(compare struck value = .eq ∧ id = node) ∧ Spares changes value id := by
  simp only [Spares, List.mem_cons, Change.remove.injEq]
  constructor
  · intro spared
    refine ⟨fun given => ?_, fun other mem => spared other (.inr mem)⟩
    rcases given with ⟨same, rfl⟩
    exact spared struck (.inl ⟨rfl, rfl⟩) same
  · intro given other either same
    rcases either with ⟨rfl, rfl⟩ | mem
    · exact given.1 ⟨same, rfl⟩
    · exact given.2 other mem same

/-- What was filed was filed by the first change and spared by the others, or it was
filed by one of those. -/
theorem filed_cons_iff : Filed (change :: changes) value id ↔
    (change = .insert value id ∧ value.isNull = false ∧ Spares changes value id) ∨
      Filed changes value id := by
  constructor
  · intro given
    rcases given with ⟨_ | ⟨first, earlier⟩, later, split, stored, spared⟩
    · cases split
      exact .inl ⟨rfl, stored, spared⟩
    · cases split
      exact .inr ⟨earlier, later, rfl, stored, spared⟩
  · intro given
    rcases given with ⟨rfl, stored, spared⟩ | ⟨earlier, later, rfl, stored, spared⟩
    · exact ⟨[], changes, rfl, stored, spared⟩
    · exact ⟨change :: earlier, later, rfl, stored, spared⟩

theorem not_filed_nil : ¬Filed [] value id := by
  intro given
  rcases given with ⟨_ | ⟨_, _⟩, _, split, _⟩ <;> cases split

/-! ## What the index holds -/

/-- Filing under null changes nothing; under any other value it adds one pair. -/
theorem holds_insert_iff {filed : Value} {node : NodeId} :
    (index.insert filed node).postings.holds value id = true ↔
      (filed.isNull = false ∧ compare filed value = .eq ∧ id = node) ∨
        index.postings.holds value id = true := by
  cases null : filed.isNull with
  | false => simp [holds_insert null]
  | true => simp [insert, null]

/-- An index holds after some changes what it held before, if they spared it, and what
they filed. -/
theorem holds_afterChanges_iff :
    (index.afterChanges changes).postings.holds value id = true ↔
      (index.postings.holds value id = true ∧ Spares changes value id) ∨
        ∃ own, Filed changes own id ∧ compare own value = .eq := by
  induction changes generalizing index with
  | nil => simp [afterChanges, Spares, not_filed_nil]
  | cons change changes ih =>
    show ((index.afterChange change).afterChanges changes).postings.holds value id = true ↔ _
    rw [ih]
    simp only [filed_cons_iff]
    cases change with
    | insert filed node =>
      simp only [afterChange, holds_insert_iff, spares_cons_insert, Change.insert.injEq]
      constructor
      · intro given
        rcases given with ⟨⟨stored, same, rfl⟩ | held, spared⟩ | ⟨own, filed, same⟩
        · exact .inr ⟨filed, .inl ⟨⟨rfl, rfl⟩, stored, (spares_congr same).2 spared⟩, same⟩
        · exact .inl ⟨held, spared⟩
        · exact .inr ⟨own, .inr filed, same⟩
      · intro given
        rcases given with ⟨held, spared⟩ | ⟨own, ⟨⟨rfl, rfl⟩, stored, spared⟩ | filed, same⟩
        · exact .inl ⟨.inr held, spared⟩
        · exact .inl ⟨.inl ⟨stored, same, rfl⟩, (spares_congr same).1 spared⟩
        · exact .inr ⟨own, filed, same⟩
    | remove struck node =>
      simp [afterChange, holds_remove, spares_cons_remove, and_assoc]

/-! ## What changes keep -/

/-- What filing and striking keep, any changes keep. -/
theorem kept_afterChanges {P : PropertyIndex → Prop}
    (filing : ∀ {index}, P index → ∀ value id, P (index.insert value id))
    (striking : ∀ {index}, P index → ∀ value id, P (index.remove value id)) (before : P index)
    (changes : List Change) : P (index.afterChanges changes) := by
  induction changes generalizing index with
  | nil => exact before
  | cons change changes ih =>
    cases change with
    | insert value id => exact ih (filing before value id)
    | remove value id => exact ih (striking before value id)

theorem counted_afterChanges (changes : List Change) : (empty.afterChanges changes).Counted :=
  kept_afterChanges Counted.insert Counted.remove .empty changes

theorem occupied_afterChanges (changes : List Change) :
    (empty.afterChanges changes).postings.Occupied := by
  refine kept_afterChanges (P := fun index => index.postings.Occupied)
    (fun {index} occupied value id => ?_) (fun occupied value id => occupied.withdraw value id)
    Postings.Occupied.empty changes
  rw [insert]
  split
  · exact occupied
  · exact occupied.post value id

/-- Striking what is held takes one away from a size that is not zero. -/
theorem size_remove_of_holds (counted : index.Counted)
    (held : index.postings.holds value id = true) :
    (index.remove value id).size + 1 = index.size := by
  rcases Postings.exists_mem_toList held with ⟨_, listed, _⟩
  have some : 0 < index.size := by
    rw [counted]
    exact List.length_pos_of_mem listed
  simp only [remove, held, if_true]
  omega

/-- Postings are in order by value and then by the number of the node. -/
theorem order_eq_lt_iff {a b : Value × NodeId} : Postings.order a b = .lt ↔
    indexCompare a.1 b.1 = .lt ∨ indexCompare a.1 b.1 = .eq ∧ a.2.number < b.2.number := by
  rw [Postings.order_eq, Ordering.then_eq_lt]
  exact or_congr_right (and_congr_right fun _ => Nat.compare_eq_lt)

/-- After any changes the index lists, strictly ascending by value and node, exactly
the pairs of a class of equal values and a node that were filed and not struck since;
filing under null files nothing. No entry is without nodes, the size kept is the number
of pairs, and striking a pair that is held finds it positive. A scan is the list of the
pairs, filtered by the operator. -/
theorem range_scan_exact (changes : List Change) :
    let index := empty.afterChanges changes
    (index.toList.Pairwise fun a b => indexCompare a.1 b.1 = .lt ∨
        indexCompare a.1 b.1 = .eq ∧ a.2.number < b.2.number) ∧
      (∀ value id, (∃ key, (key, id) ∈ index.toList ∧ indexCompare key value = .eq) ↔
        ∃ own, Filed changes own id ∧ indexCompare own value = .eq) ∧
      (∀ nodes ∈ index.postings.sets.values, nodes.toList ≠ []) ∧
      index.size = index.toList.length ∧
      (∀ value id, index.postings.holds value id = true →
        (index.remove value id).size + 1 = index.size) ∧
      ∀ op operand, index.scan op operand =
        (index.toList.filter fun e => op.holds e.1 operand).map Prod.snd := by
  intro index
  refine ⟨?_, fun value id => ?_, occupied_afterChanges changes, counted_afterChanges changes,
    fun value id => size_remove_of_holds (counted_afterChanges changes), scan_eq index⟩
  · exact index.postings.toList_ascending.imp order_eq_lt_iff.1
  · refine Postings.exists_mem_toList_iff.trans (holds_afterChanges_iff.trans ?_)
    simp only [holds_empty, Bool.false_eq_true, false_and, false_or]
    exact Iff.rfl

/-- Equal numbers of two kinds share an entry, which either takes a node out of; removing
what is not filed changes nothing. -/
theorem range_scan_exact_over_shared_entries :
    let one : Value := .float (.finite false 1023 0)
    let three : Value := .float (.finite false 1024 2251799813685248)
    let nan : Value := .float .notANumber
    let below : Value := .float (.infinite true)
    let changes : List Change := [.insert (.int 1) ⟨2⟩, .insert one ⟨1⟩, .insert (.int 1) ⟨1⟩,
      .insert .null ⟨3⟩, .insert nan ⟨3⟩, .insert (.string "1") ⟨4⟩, .insert (.int 3) ⟨5⟩,
      .remove (.string "1") ⟨2⟩, .remove (.int 2) ⟨1⟩, .remove three ⟨5⟩, .insert below ⟨5⟩]
    let index := empty.afterChanges changes
    index.toList = [(below, ⟨5⟩), (.int 1, ⟨1⟩), (.int 1, ⟨2⟩), (nan, ⟨3⟩), (.string "1", ⟨4⟩)] ∧
      (∃ own, Filed changes own ⟨1⟩ ∧ indexCompare own one = .eq) ∧
      index.size = index.toList.length ∧
      index.postings.holds one ⟨1⟩ = true ∧ (index.remove one ⟨1⟩).size + 1 = index.size ∧
      index.scan .le one = [⟨5⟩, ⟨1⟩, ⟨2⟩] ∧ index.scan .gt (.int 0) = [⟨1⟩, ⟨2⟩] ∧
      index.scan .ne nan = [⟨5⟩, ⟨1⟩, ⟨2⟩, ⟨3⟩, ⟨4⟩] ∧ index.scan .eq nan = [] := by
  intro one three nan below changes index
  obtain ⟨-, exactly, -, counted, removed, scans⟩ := range_scan_exact changes
  have listed : index.toList =
      [(below, ⟨5⟩), (.int 1, ⟨1⟩), (.int 1, ⟨2⟩), (nan, ⟨3⟩), (.string "1", ⟨4⟩)] := by
    decide +kernel
  have held : index.postings.holds one ⟨1⟩ = true := by decide +kernel
  have shared : indexCompare (.int 1) one = .eq := by decide +kernel
  refine ⟨listed, (exactly one ⟨1⟩).1 ⟨.int 1, by simp [index, listed], shared⟩, counted, held,
    removed one ⟨1⟩ held, ?_, ?_, ?_, ?_⟩
  all_goals
    rw [scans, listed]
    decide +kernel

/-! ## One value tested for all that share its entry -/

/-- What was filed under a value and not struck since is in an entry whose key is equal
to the value. -/
theorem exists_entry_of_filed (filed : Filed changes value id) :
    ∃ e ∈ (empty.afterChanges changes).postings.sets.entries,
      id ∈ e.2.toList ∧ compare e.1 value = .eq := by
  have held : (empty.afterChanges changes).postings.holds value id = true :=
    holds_afterChanges_iff.2 (.inr ⟨value, filed, ReflCmp.compare_self⟩)
  rcases Postings.exists_mem_toList held with ⟨key, listed, same⟩
  rcases Postings.mem_toList_iff.1 listed with ⟨nodes, entry, mem⟩
  exact ⟨(key, nodes), entry, mem, same⟩

/-- A scan finds the nodes that were filed under some value that the operator holds of,
whichever value stands for it in the index. -/
theorem mem_scan_afterChanges_iff {op : CompareOp} {operand : Value} :
    id ∈ (empty.afterChanges changes).scan op operand ↔
      ∃ own, Filed changes own id ∧ op.holds own operand = true := by
  rw [mem_scan_iff]
  constructor
  · intro given
    rcases given with ⟨key, listed, holds⟩
    rcases holds_afterChanges_iff.1 (Postings.holds_of_mem_toList listed) with
      ⟨held, _⟩ | ⟨own, filed, same⟩
    · cases held
    · exact ⟨own, filed, (CompareOp.holds_congr_left same op operand).trans holds⟩
  · intro given
    rcases given with ⟨own, filed, holds⟩
    rcases exists_entry_of_filed filed with ⟨e, entry, mem, same⟩
    exact ⟨e.1, Postings.mem_toList_iff.2 ⟨e.2, entry, mem⟩,
      (CompareOp.holds_congr_left same op operand).trans holds⟩

/-- Values equal in index order answer every operator alike, on either side, and compare
alike with every value; where the comparison has an answer, which is between two values
of one rank that are neither null nor not-a-number, it is that of the index order. So
the key of an entry answers every operator as the value does that a node of the entry
was filed under, and a scan finds exactly the nodes that were filed under a value that
the operator holds of. -/
theorem shared_entry_indistinguishable :
    (∀ a a' x : Value, indexCompare a a' = .eq →
        (∀ op : CompareOp, op.holds a x = op.holds a' x ∧ op.holds x a = op.holds x a') ∧
          a.compare? x = a'.compare? x) ∧
      (∀ (a x : Value) (o : Ordering), a.compare? x = some o ↔ a.isNaN = false ∧
        x.isNaN = false ∧ a.rank = x.rank ∧ a.isNull = false ∧ indexCompare a x = o) ∧
      (∀ changes own id, Filed changes own id →
        ∃ e ∈ (empty.afterChanges changes).postings.sets.entries, id ∈ e.2.toList ∧
          indexCompare e.1 own = .eq ∧
            ∀ (op : CompareOp) operand, op.holds e.1 operand = op.holds own operand) ∧
      ∀ changes op operand id, id ∈ (empty.afterChanges changes).scan op operand ↔
        ∃ own, Filed changes own id ∧ op.holds own operand = true := by
  refine ⟨fun a a' x same => ⟨fun op => ⟨?_, ?_⟩, ?_⟩, fun a x o => Value.compare?_eq_some_iff,
    fun changes own id filed => ?_, fun changes op operand id => mem_scan_afterChanges_iff⟩
  · exact CompareOp.holds_congr_left same op x
  · exact CompareOp.holds_congr_right same op x
  · exact Value.compare?_congr_left same x
  · rcases exists_entry_of_filed filed with ⟨e, entry, mem, same⟩
    exact ⟨e, entry, mem, same, CompareOp.holds_congr_left same⟩

/-- The whole number 2⁵³ was filed when the float 2⁵³ had opened the entry. The next whole
number is above both, although the nearest float to it is 2⁵³. -/
theorem shared_entry_indistinguishable_beyond_whole_floats :
    let float : Value := .float (.finite false 1076 0)
    let whole : Value := .int 9007199254740992
    let above : Value := .int 9007199254740993
    let changes : List Change := [.insert float ⟨1⟩, .insert whole ⟨2⟩]
    indexCompare float whole = .eq ∧
      (∀ op : CompareOp, op.holds float above = op.holds whole above ∧
        op.holds above float = op.holds above whole) ∧
      float.compare? above = whole.compare? above ∧ float.compare? above = some .lt ∧
      Filed changes whole ⟨2⟩ ∧
      (∃ e ∈ (empty.afterChanges changes).postings.sets.entries, ⟨2⟩ ∈ e.2.toList ∧
        indexCompare e.1 whole = .eq ∧
          ∀ (op : CompareOp) operand, op.holds e.1 operand = op.holds whole operand) ∧
      ⟨2⟩ ∈ (empty.afterChanges changes).scan .lt above := by
  intro float whole above changes
  obtain ⟨alike, answers, entries, scans⟩ := shared_entry_indistinguishable
  have same : indexCompare float whole = .eq := by decide +kernel
  have filed : Filed changes whole ⟨2⟩ :=
    ⟨[.insert float ⟨1⟩], [], rfl, rfl, fun _ mem => by cases mem⟩
  obtain ⟨operators, comparison⟩ := alike float whole above same
  exact ⟨same, operators, comparison,
    (answers float above .lt).2 ⟨rfl, rfl, rfl, rfl, by decide +kernel⟩, filed,
    entries changes whole ⟨2⟩ filed,
    (scans changes .lt above ⟨2⟩).2 ⟨whole, filed, by decide +kernel⟩⟩

end PropertyIndex

end PropertyGraph
