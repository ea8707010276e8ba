import PropertyGraph.Entity.Node
import PropertyGraph.Proofs.Ordered.Map

/-!
# Properties and labels of nodes

A property map built by writes holds no null. A node built by the operations on
nodes carries no label twice.
-/

namespace PropertyGraph

open Std

/-! ## Properties -/

namespace Properties

/-- No property is null. -/
def NoNull (properties : Properties) : Prop :=
  ∀ key value, properties.get? key = some value → value.isNull = false

theorem NoNull.empty : NoNull ∅ := by
  intro key value found
  cases found

theorem NoNull.write {properties : Properties} (noNull : NoNull properties) (key : String)
    (value : Value) : NoNull (properties.write key value) := by
  intro q v found
  rw [Properties.write] at found
  split at found
  · rw [OrderedMap.get?_erase] at found
    split at found
    · cases found
    · exact noNull q v found
  · rename_i present
    rw [OrderedMap.get?_insert] at found
    split at found
    · rw [← Option.some.inj found]
      exact Bool.eq_false_iff.2 present
    · exact noNull q v found

theorem NoNull.ofPairs (pairs : List (String × Value)) : NoNull (ofPairs pairs) := by
  have walk : ∀ (rest : List (String × Value)) (properties : Properties), NoNull properties →
      NoNull (rest.foldl (fun properties pair => properties.write pair.1 pair.2) properties) := by
    intro rest
    induction rest with
    | nil => exact fun _ noNull => noNull
    | cons pair rest ih => exact fun _ noNull => ih _ (noNull.write pair.1 pair.2)
  exact walk pairs ∅ .empty

theorem get?_write_of_ne (properties : Properties) {key q : String} (value : Value)
    (other : q ≠ key) : (properties.write key value).get? q = properties.get? q := by
  rw [write]
  split
  · exact OrderedMap.get?_erase_of_ne properties other
  · exact OrderedMap.get?_insert_of_ne properties value other

theorem get?_write_self (properties : Properties) (key : String) {value : Value}
    (present : value.isNull = false) : (properties.write key value).get? key = some value := by
  rw [write, present]
  exact OrderedMap.get?_insert_self properties key value

/-- Writing other keys leaves a key as it is. -/
theorem get?_foldl_write_of_ne {pairs : List (String × Value)} {key : String}
    (others : ∀ pair ∈ pairs, key ≠ pair.1) (properties : Properties) :
    (pairs.foldl (fun properties pair => properties.write pair.1 pair.2) properties).get? key =
      properties.get? key := by
  induction pairs generalizing properties with
  | nil => rfl
  | cons pair rest ih =>
    rw [List.forall_mem_cons] at others
    rw [List.foldl_cons, ih others.2, get?_write_of_ne properties pair.2 others.1]

/-- Of pairs with different keys each decides the value of its key. -/
theorem get?_ofPairs_of_mem {pairs : List (String × Value)} {key : String} {value : Value}
    (keys : (pairs.map Prod.fst).Nodup) (mem : (key, value) ∈ pairs)
    (present : value.isNull = false) : (ofPairs pairs).get? key = some value := by
  obtain ⟨before, after, rfl⟩ := List.append_of_mem mem
  rw [List.map_append, List.map_cons, List.nodup_append, List.nodup_cons] at keys
  have others : ∀ pair ∈ after, key ≠ pair.1 := fun pair mem same =>
    keys.2.1.1 (List.mem_map.2 ⟨pair, mem, same.symm⟩)
  rw [ofPairs, List.foldl_append, List.foldl_cons, get?_foldl_write_of_ne others,
    get?_write_self _ _ present]

/-- Each value comes from one of the pairs. -/
theorem mem_of_get?_ofPairs {pairs : List (String × Value)} {key : String} {value : Value}
    (found : (ofPairs pairs).get? key = some value) : (key, value) ∈ pairs := by
  have walk : ∀ (rest : List (String × Value)) (properties : Properties),
      (rest.foldl (fun properties pair => properties.write pair.1 pair.2) properties).get? key =
        some value → (key, value) ∈ rest ∨ properties.get? key = some value := by
    intro rest
    induction rest with
    | nil => exact fun _ found => .inr found
    | cons pair rest ih =>
      intro properties found
      rcases ih _ found with mem | found
      · exact .inl (List.mem_cons_of_mem _ mem)
      · change (properties.write pair.1 pair.2).get? key = some value at found
        by_cases other : key = pair.1
        · subst other
          rw [write] at found
          split at found
          · rw [OrderedMap.get?_erase_self] at found
            cases found
          · rw [OrderedMap.get?_insert_self] at found
            cases found
            exact .inl List.mem_cons_self
        · rw [get?_write_of_ne properties pair.2 other] at found
          exact .inr found
  rcases walk pairs ∅ found with mem | found
  · exact mem
  · cases found

/-- Of pairs with different keys, none of them null, each stays. -/
theorem size_ofPairs {pairs : List (String × Value)} (keys : (pairs.map Prod.fst).Nodup)
    (present : ∀ pair ∈ pairs, pair.2.isNull = false) : (ofPairs pairs).size = pairs.length := by
  have walk : ∀ (rest : List (String × Value)) (properties : Properties),
      (rest.map Prod.fst).Nodup → (∀ pair ∈ rest, pair.2.isNull = false) →
      (∀ pair ∈ rest, properties.contains pair.1 = false) →
      (rest.foldl (fun properties pair => properties.write pair.1 pair.2) properties).size =
        properties.size + rest.length := by
    intro rest
    induction rest with
    | nil => intros; rfl
    | cons pair rest ih =>
      intro properties keys present new
      rw [List.map_cons, List.nodup_cons] at keys
      rw [List.forall_mem_cons] at present new
      have written : properties.write pair.1 pair.2 = properties.insert pair.1 pair.2 := by
        rw [write, present.1]
        rfl
      rw [List.foldl_cons, written, ih _ keys.2 present.2, OrderedMap.size_insert, new.1,
        List.length_cons]
      · simp only [Bool.false_eq_true, if_false]
        omega
      · intro other mem
        rw [← Bool.not_eq_true, OrderedMap.contains_insert_iff]
        rintro (same | known)
        · exact keys.1 (List.mem_map.2 ⟨other, mem, same⟩)
        · exact Bool.eq_false_iff.1 (new.2 other mem) known
  have grown := walk pairs ∅ keys present fun pair _ => rfl
  have none : (∅ : Properties).size = 0 := rfl
  rw [ofPairs, grown, none, Nat.zero_add]

end Properties

/-! ## Labels -/

namespace Node

theorem hasLabel_iff {node : Node} {label : String} :
    node.hasLabel label = true ↔ label ∈ node.labels :=
  List.contains_iff_mem

theorem attach?_eq_some_iff {node node' : Node} {label : String} :
    node.attach? label = some node' ↔
      node.hasLabel label = false ∧ node' = { node with labels := node.labels ++ [label] } := by
  rw [attach?]
  cases node.hasLabel label <;> simp [eq_comm]

theorem detach?_eq_some_iff {node node' : Node} {label : String} :
    node.detach? label = some node' ↔
      node.hasLabel label = true ∧
        node' = { node with labels := node.labels.filter fun carried => carried != label } := by
  rw [detach?]
  cases node.hasLabel label <;> simp [eq_comm]

/-- No label is gathered twice. -/
theorem gathered_nodup {labels carried : List String} (nodup : carried.Nodup) :
    (labels.foldl
      (fun carried label => if carried.contains label then carried else carried ++ [label])
      carried).Nodup := by
  induction labels generalizing carried with
  | nil => exact nodup
  | cons first rest ih =>
    rw [List.foldl_cons]
    split
    · exact ih nodup
    · rename_i unknown
      refine ih (List.nodup_append.2 ⟨nodup, List.pairwise_singleton _ _, ?_⟩)
      intro a amem b bmem same
      rw [List.mem_singleton.1 bmem] at same
      exact unknown (List.contains_iff_mem.2 (same ▸ amem))

/-- Every label is gathered. -/
theorem mem_gathered_iff {labels carried : List String} {q : String} :
    q ∈ labels.foldl
      (fun carried label => if carried.contains label then carried else carried ++ [label])
      carried ↔ q ∈ carried ∨ q ∈ labels := by
  induction labels generalizing carried with
  | nil => simp
  | cons first rest ih =>
    rw [List.foldl_cons, ih, List.mem_cons]
    split
    · rename_i known
      have mem := List.contains_iff_mem.1 known
      grind
    · rw [List.mem_append, List.mem_singleton, or_assoc]

theorem hasLabel_create_iff {id : NodeId} {labels : List String}
    {properties : List (String × Value)} {label : String} :
    (create id labels properties).hasLabel label = true ↔ label ∈ labels := by
  rw [hasLabel_iff, create, mem_gathered_iff]
  simp

/-- Labels without repetition are gathered as they are. -/
theorem gathered_of_nodup {labels carried : List String} (nodup : (carried ++ labels).Nodup) :
    labels.foldl
      (fun carried label => if carried.contains label then carried else carried ++ [label])
      carried = carried ++ labels := by
  induction labels generalizing carried with
  | nil => simp
  | cons first rest ih =>
    have fresh : first ∉ carried := fun mem =>
      (List.nodup_append.1 nodup).2.2 first mem first List.mem_cons_self rfl
    rw [List.foldl_cons, if_neg fun known => fresh (List.contains_iff_mem.1 known), ih]
    · rw [List.append_assoc]
      rfl
    · rw [List.append_assoc]
      exact nodup

/-! ## Proper nodes -/

/-- What holds of a node stored under an identity: it is its own, no label is
carried twice and no property is null. -/
structure Proper (id : NodeId) (node : Node) : Prop where
  own : node.id = id
  labels : node.labels.Nodup
  noNull : Properties.NoNull node.properties

theorem Proper.create (id : NodeId) (labels : List String)
    (properties : List (String × Value)) : Proper id (create id labels properties) where
  own := rfl
  labels := gathered_nodup List.nodup_nil
  noNull := .ofPairs properties

theorem Proper.attach {id : NodeId} {node node' : Node} {label : String}
    (proper : Proper id node) (attached : node.attach? label = some node') :
    Proper id node' := by
  obtain ⟨lacking, rfl⟩ := attach?_eq_some_iff.1 attached
  refine ⟨proper.own, List.nodup_append.2 ⟨proper.labels, List.pairwise_singleton _ _, ?_⟩,
    proper.noNull⟩
  intro a amem b bmem same
  rw [List.mem_singleton.1 bmem] at same
  rw [hasLabel_iff.2 (same ▸ amem)] at lacking
  cases lacking

theorem Proper.detach {id : NodeId} {node node' : Node} {label : String}
    (proper : Proper id node) (detached : node.detach? label = some node') :
    Proper id node' := by
  obtain ⟨_, rfl⟩ := detach?_eq_some_iff.1 detached
  exact ⟨proper.own, proper.labels.filter _, proper.noNull⟩

theorem Proper.write {id : NodeId} {node : Node} (proper : Proper id node) (key : String)
    (value : Value) : Proper id (node.write key value) :=
  ⟨proper.own, proper.labels, proper.noNull.write key value⟩

end Node

end PropertyGraph
