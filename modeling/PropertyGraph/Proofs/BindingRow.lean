import PropertyGraph.Proofs.Pattern.Tidy

/-!
# Rows of bindings

Binding a name decides what the row gives for that name and for no other. So a
row extended by an assignment gives each variable of the pattern what the
assignment has in the variable's slot, and keeps what it gives for other names.
Names that are bound as they are stay where they are, and the others are added at
the end of the row in the order in which they are bound.
-/

namespace PropertyGraph

namespace BindingRow

/-- The name that is bound is found bound to the entity, and every other name as before.
-/
theorem find?_bindEntry (name q : String) (entity : EntityRef)
    (entries : List (String × EntityRef)) :
    (bindEntry name entity entries).find? (fun e => e.1 == q) =
      if q = name then some (name, entity) else entries.find? fun e => e.1 == q := by
  have one : ∀ (e : String × EntityRef) (rest : List (String × EntityRef)),
      (e :: rest).find? (fun e => e.1 == q) =
        if q = e.1 then some e else rest.find? fun e => e.1 == q := by
    intro e rest
    rw [List.find?_cons]
    by_cases asked : q = e.1
    · rw [beq_iff_eq.2 asked.symm, if_pos asked]
    · rw [beq_eq_false_iff_ne.2 (Ne.symm asked), if_neg asked]
  induction entries with
  | nil => exact one (name, entity) []
  | cons e rest ih =>
    rw [bindEntry]
    by_cases here : e.1 = name
    · rw [if_pos here, one, one, here]
      split <;> rfl
    · rw [if_neg here, one, one, ih]
      by_cases asked : q = e.1
      · rw [if_pos asked, if_pos asked, if_neg fun same => here (asked.symm.trans same)]
      · rw [if_neg asked, if_neg asked]

theorem get?_bind (row : BindingRow) (name q : String) (entity : EntityRef) :
    (row.bind name entity).get? q = if q = name then some entity else row.get? q := by
  unfold get? bind
  rw [find?_bindEntry]
  split <;> rfl

theorem binds_bind (row : BindingRow) (name q : String) (entity : EntityRef) :
    (row.bind name entity).binds q = (decide (q = name) || row.binds q) := by
  unfold binds
  rw [get?_bind]
  by_cases same : q = name <;> simp [same]

theorem binds_iff {row : BindingRow} {name : String} :
    row.binds name = true ↔ name ∈ row.names := by
  unfold binds get? names
  rw [Option.isSome_map, List.find?_isSome, List.mem_map]
  simp only [beq_iff_eq]

/-! ## Where a name is bound -/

theorem bindEntry_of_find? {name : String} {entity : EntityRef}
    {entries : List (String × EntityRef)}
    (found : (entries.find? fun e => e.1 == name).map Prod.snd = some entity) :
    bindEntry name entity entries = entries := by
  induction entries with
  | nil => cases found
  | cons e rest ih =>
    rw [List.find?_cons] at found
    rw [bindEntry]
    by_cases here : e.1 = name
    · rw [beq_iff_eq.2 here] at found
      rw [if_pos here, ← here, ← Option.some.inj found]
    · rw [beq_eq_false_iff_ne.2 here] at found
      rw [if_neg here, ih found]

theorem bindEntry_of_not_mem {name : String} (entity : EntityRef)
    {entries : List (String × EntityRef)} (absent : name ∉ entries.map Prod.fst) :
    bindEntry name entity entries = entries ++ [(name, entity)] := by
  induction entries with
  | nil => rfl
  | cons e rest ih =>
    rw [List.map_cons, List.mem_cons, not_or] at absent
    rw [bindEntry, if_neg (Ne.symm absent.1), ih absent.2]
    rfl

theorem map_fst_bindEntry_of_mem {name : String} (entity : EntityRef)
    {entries : List (String × EntityRef)} (mem : name ∈ entries.map Prod.fst) :
    (bindEntry name entity entries).map Prod.fst = entries.map Prod.fst := by
  induction entries with
  | nil => cases mem
  | cons e rest ih =>
    rw [bindEntry]
    by_cases here : e.1 = name
    · rw [if_pos here, List.map_cons, List.map_cons, here]
    · rw [if_neg here, List.map_cons, List.map_cons,
        ih ((List.mem_cons.1 mem).resolve_left (Ne.symm here))]

/-- Binding a name as it is bound changes nothing. -/
theorem bind_of_get? {row : BindingRow} {name : String} {entity : EntityRef}
    (found : row.get? name = some entity) : row.bind name entity = row :=
  congrArg BindingRow.mk (bindEntry_of_find? found)

/-- A name that is not bound is bound last. -/
theorem bind_of_not_mem {row : BindingRow} {name : String} (entity : EntityRef)
    (absent : name ∉ row.names) :
    row.bind name entity = ⟨row.entries ++ [(name, entity)]⟩ :=
  congrArg BindingRow.mk (bindEntry_of_not_mem entity absent)

theorem names_bind_nodup {row : BindingRow} (nodup : row.names.Nodup) (name : String)
    (entity : EntityRef) : (row.bind name entity).names.Nodup := by
  by_cases mem : name ∈ row.names
  · rw [names, bind, map_fst_bindEntry_of_mem entity mem]
    exact nodup
  · rw [bind_of_not_mem entity mem, names, List.map_append, List.nodup_append]
    refine ⟨nodup, List.pairwise_singleton _ _, fun other known last single same => ?_⟩
    rw [same, List.mem_singleton.1 single] at known
    exact mem known

/-- No name is bound twice in a row that names were bound in one after the other. -/
theorem names_ofList_nodup (bindings : List (String × EntityRef)) :
    (ofList bindings).names.Nodup := by
  have walk : ∀ row : BindingRow, row.names.Nodup →
      (bindings.foldl (fun row b => row.bind b.1 b.2) row).names.Nodup := by
    induction bindings with
    | nil => exact fun _ nodup => nodup
    | cons b rest ih => exact fun row nodup => ih _ (names_bind_nodup nodup b.1 b.2)
  exact walk empty List.nodup_nil

/-- Binding different names, those among them that are bound as they are, adds the
others at the end. -/
theorem entries_foldl_bind {bindings : List (String × EntityRef)} {row : BindingRow}
    (names : (bindings.map Prod.fst).Nodup)
    (agree : ∀ b ∈ bindings, ∀ entity, row.get? b.1 = some entity → entity = b.2) :
    (bindings.foldl (fun row b => row.bind b.1 b.2) row).entries =
      row.entries ++ bindings.filter fun b => !row.binds b.1 := by
  induction bindings generalizing row with
  | nil => exact (List.append_nil _).symm
  | cons b rest ih =>
    rw [List.map_cons, List.nodup_cons] at names
    rw [List.forall_mem_cons] at agree
    rw [List.foldl_cons]
    cases found : row.get? b.1 with
    | some entity =>
      have bound : row.binds b.1 = true := by rw [binds, found, Option.isSome_some]
      rw [agree.1 entity found] at found
      rw [bind_of_get? found, ih names.2 agree.2, List.filter_cons_of_neg]
      simp [bound]
    | none =>
      have unbound : row.binds b.1 = false := by rw [binds, found, Option.isSome_none]
      have absent : b.1 ∉ row.names := fun mem =>
        Bool.false_ne_true (unbound.symm.trans (binds_iff.2 mem))
      have apart : ∀ other ∈ rest, other.1 ≠ b.1 := fun other mem same =>
        names.1 (List.mem_map.2 ⟨other, mem, same⟩)
      have later : (rest.filter fun other => !(row.bind b.1 b.2).binds other.1) =
          rest.filter fun other => !row.binds other.1 := by
        refine List.filter_congr fun other mem => ?_
        rw [binds_bind, decide_eq_false (apart other mem), Bool.false_or]
      rw [ih names.2, later, bind_of_not_mem b.2 absent,
        List.filter_cons_of_pos (by rw [unbound]; rfl)]
      · exact List.append_assoc _ _ _
      · intro other mem entity found
        rw [get?_bind, if_neg (apart other mem)] at found
        exact agree.2 other mem entity found

end BindingRow

namespace Pattern

variable {p : Pattern} {a : Assignment} {name : String}

theorem get?_bindSlot_of_ne {place : SlotRef} (row : BindingRow)
    (other : p.var? place ≠ some name) : (p.bindSlot a row place).get? name = row.get? name := by
  unfold bindSlot
  split
  · rename_i var entity named _
    rw [BindingRow.get?_bind, if_neg]
    intro same
    exact other (same ▸ named)
  · rfl

/-- Slots with other variables leave a name as it is. -/
theorem get?_foldl_bindSlot_of_ne {places : List SlotRef} (row : BindingRow)
    (others : ∀ place ∈ places, p.var? place ≠ some name) :
    (places.foldl (p.bindSlot a) row).get? name = row.get? name := by
  induction places generalizing row with
  | nil => rfl
  | cons place rest ih =>
    rw [List.forall_mem_cons] at others
    rw [List.foldl_cons, ih _ others.2, get?_bindSlot_of_ne row others.1]

/-- A row extended by an assignment keeps what it gives for other names. -/
theorem get?_bindRow_of_unused (row : BindingRow) (unused : p.Unused name) :
    (p.bindRow row a).get? name = row.get? name :=
  get?_foldl_bindSlot_of_ne row fun place _ => unused place

/-- A row extended by an assignment gives a variable what is in its slot. -/
theorem Tidy.get?_bindRow (tidy : p.Tidy) {place : SlotRef} (row : BindingRow)
    {entity : EntityRef} (named : p.var? place = some name) (has : a.entity? place = some entity) :
    (p.bindRow row a).get? name = some entity := by
  obtain ⟨before, after, split⟩ :=
    List.append_of_mem ((tidy.listed place).2 (has_of_var? named))
  have later : ∀ other ∈ after, p.var? other ≠ some name := by
    intro other mem named'
    have once := tidy.once
    rw [split, List.nodup_append] at once
    rw [tidy.unique other place name named' named] at mem
    exact (List.nodup_cons.1 once.2.1).1 mem
  rw [bindRow, split, List.foldl_append, List.foldl_cons, get?_foldl_bindSlot_of_ne _ later,
    bindSlot, named, has]
  dsimp only
  rw [BindingRow.get?_bind, if_pos rfl]

end Pattern

end PropertyGraph
