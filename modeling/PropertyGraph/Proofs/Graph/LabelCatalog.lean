import PropertyGraph.Graph.Change

/-!
# The label catalog of a growing graph

Registering labels in turn appends those that the catalog does not know, each at
its first mention. Gathering the labels of a new node drops no label that the
catalog would not drop itself, so creating a node registers the labels that were
asked for.
-/

namespace PropertyGraph

namespace LabelCatalog

variable {c : LabelCatalog} {label q : String} {labels : List String}

theorem contains_iff : c.contains label = true ↔ label ∈ c.labels := List.contains_iff_mem

theorem register_of_mem (known : label ∈ c.labels) : c.register label = c :=
  if_pos (contains_iff.2 known)

theorem register_of_not_mem (unknown : label ∉ c.labels) :
    c.register label = ⟨c.labels ++ [label]⟩ :=
  if_neg fun known => unknown (contains_iff.1 known)

theorem mem_register_iff : q ∈ (c.register label).labels ↔ q ∈ c.labels ∨ q = label := by
  by_cases known : label ∈ c.labels
  · rw [register_of_mem known]
    exact ⟨.inl, fun either => either.elim id fun same => same ▸ known⟩
  · rw [register_of_not_mem known, List.mem_append, List.mem_singleton]

theorem register_nodup (nodup : c.labels.Nodup) (label : String) :
    (c.register label).labels.Nodup := by
  by_cases known : label ∈ c.labels
  · rwa [register_of_mem known]
  · rw [register_of_not_mem known]
    refine List.nodup_append.2 ⟨nodup, List.pairwise_singleton _ _, ?_⟩
    intro a mem b mem' same
    rw [same, List.mem_singleton.1 mem'] at mem
    exact known mem

theorem mem_foldl_register_iff :
    q ∈ (labels.foldl register c).labels ↔ q ∈ c.labels ∨ q ∈ labels := by
  induction labels generalizing c with
  | nil => simp
  | cons first rest ih => rw [List.foldl_cons, ih, mem_register_iff, List.mem_cons, or_assoc]

theorem foldl_register_nodup (nodup : c.labels.Nodup) (labels : List String) :
    (labels.foldl register c).labels.Nodup := by
  induction labels generalizing c with
  | nil => exact nodup
  | cons first rest ih => exact ih (register_nodup nodup first)

/-- Registering labels appends the unknown ones in the order of their first mention. -/
theorem labels_foldl_register (c : LabelCatalog) (labels : List String) :
    (labels.foldl register c).labels =
      c.labels ++ (labels.filter fun label => !c.contains label).eraseDups := by
  induction labels generalizing c with
  | nil => simp
  | cons first rest ih =>
    rw [List.foldl_cons, ih]
    by_cases known : first ∈ c.labels
    · rw [register_of_mem known, List.filter_cons_of_neg]
      rw [contains_iff.2 known]
      exact Bool.false_ne_true
    · have new : c.contains first = false :=
        Bool.eq_false_iff.2 fun contains => known (contains_iff.1 contains)
      rw [List.filter_cons_of_pos (by rw [new]; rfl), List.eraseDups_cons, List.filter_filter,
        register_of_not_mem known, List.append_assoc]
      have later :
          rest.filter (fun label => !(⟨c.labels ++ [first]⟩ : LabelCatalog).contains label) =
            rest.filter fun label => !(label == first) && !c.contains label := by
        refine List.filter_congr fun label _ => ?_
        rw [Bool.eq_iff_iff]
        simp [contains, and_comm]
      rw [later]
      rfl

/-- Dropping repeated labels first makes no difference to what is registered. -/
theorem foldl_register_gathered (carried labels : List String) (c : LabelCatalog) :
    (labels.foldl
      (fun carried label => if carried.contains label then carried else carried ++ [label])
      carried).foldl register c = labels.foldl register (carried.foldl register c) := by
  induction labels generalizing carried with
  | nil => rfl
  | cons label rest ih =>
    rw [List.foldl_cons, List.foldl_cons]
    split
    · rename_i known
      have registered := mem_foldl_register_iff (c := c).2 (.inr (List.contains_iff_mem.1 known))
      rw [ih, register_of_mem registered]
    · rw [ih, List.foldl_append]
      rfl

end LabelCatalog

theorem Graph.catalog_createNode (g : Graph) (labels : List String)
    (properties : List (String × Value)) :
    (g.createNode labels properties).2.catalog = labels.foldl .register g.catalog :=
  LabelCatalog.foldl_register_gathered [] labels g.catalog

end PropertyGraph
