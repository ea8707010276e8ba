import PropertyGraph.Proofs.Pattern.Mentions

/-!
# Literals of paths and of their patterns

A pattern has the literals of its paths, up to values that are equal in index
order: of the literals that several occurrences of one variable give for a key,
the slot keeps the first. So a condition that does not tell such values apart
holds of some literal of the pattern exactly if it holds of some literal of the
paths.
-/

namespace PropertyGraph

/-- The literals of the nodes and relationships of a path. -/
def Path.literals (path : Path) : List (String × Value) :=
  path.nodes.flatMap NodeDescriptor.literals ++ path.rels.flatMap RelDescriptor.literals

/-- The literals of the slots of a pattern. -/
def Pattern.literals (p : Pattern) : List (String × Value) :=
  p.nodes.flatMap NodeSlot.literals ++ p.rels.flatMap RelSlot.literals

/-- A condition on literals that values equal in index order satisfy alike. -/
def ValueBlind (P : String × Value → Prop) : Prop :=
  ∀ a b : String × Value, a.1 = b.1 → compare a.2 b.2 = .eq → (P a ↔ P b)

namespace Covers

variable {given kept : List (String × Value)} {P : String × Value → Prop}

theorem exists_iff (covers : Covers given kept) (blind : ValueBlind P) :
    (∃ literal ∈ kept, P literal) ↔ ∃ literal ∈ given, P literal := by
  constructor
  · intro some
    obtain ⟨literal, mem, holds⟩ := some
    exact ⟨literal, covers.among literal mem, holds⟩
  · intro some
    obtain ⟨literal, mem, holds⟩ := some
    obtain ⟨first, inside, key, equal⟩ := covers.each literal mem
    exact ⟨first, inside, (blind first literal key equal).2 holds⟩

theorem forall_iff (covers : Covers given kept) (blind : ValueBlind P) :
    (∀ literal ∈ kept, P literal) ↔ ∀ literal ∈ given, P literal := by
  constructor
  · intro each literal mem
    obtain ⟨first, inside, key, equal⟩ := covers.each literal mem
    exact (blind first literal key equal).1 (each first inside)
  · intro each literal mem
    exact each literal (covers.among literal mem)

end Covers

namespace Pattern

variable {p : Pattern} {P : String × Value → Prop}

theorem exists_literal_iff : (∃ literal ∈ p.literals, P literal) ↔
    (∃ slot ∈ p.nodes, ∃ literal ∈ slot.literals, P literal) ∨
      ∃ slot ∈ p.rels, ∃ literal ∈ slot.literals, P literal := by
  unfold literals
  simp only [List.mem_append, List.mem_flatMap, or_and_right, exists_or]
  grind

namespace Records

variable {nodes : List NodeMention} {rels : List RelMention}

theorem exists_node_literal_iff (records : p.Records nodes rels) (blind : ValueBlind P) :
    (∃ slot ∈ p.nodes, ∃ literal ∈ slot.literals, P literal) ↔
      ∃ m ∈ nodes, ∃ literal ∈ m.descriptor.literals, P literal := by
  constructor
  · intro some
    obtain ⟨slot, mem, some⟩ := some
    obtain ⟨k, found⟩ := List.getElem?_of_mem mem
    obtain ⟨literal, given, holds⟩ :=
      ((records.collects k slot found).literals.exists_iff blind).1 some
    obtain ⟨d, said, given⟩ := List.mem_flatMap.1 given
    obtain ⟨m, mem, -, rfl⟩ := mem_said_iff.1 said
    exact ⟨m, mem, literal, given, holds⟩
  · intro some
    obtain ⟨m, mem, literal, given, holds⟩ := some
    obtain ⟨slot, found, collects⟩ := records.exists_slot_of_node mem
    have said := List.mem_flatMap.2 ⟨_, mem_said mem, given⟩
    exact ⟨slot, List.mem_of_getElem? found,
      (collects.literals.exists_iff blind).2 ⟨literal, said, holds⟩⟩

theorem exists_rel_literal_iff (records : p.Records nodes rels) (blind : ValueBlind P) :
    (∃ slot ∈ p.rels, ∃ literal ∈ slot.literals, P literal) ↔
      ∃ m ∈ rels, ∃ literal ∈ m.descriptor.literals, P literal := by
  constructor
  · intro some
    obtain ⟨slot, mem, some⟩ := some
    obtain ⟨m, inside, opens⟩ := records.exists_opens_of_mem mem
    exact ⟨m, inside, (opens.literals.exists_iff blind).1 some⟩
  · intro some
    obtain ⟨m, mem, some⟩ := some
    obtain ⟨slot, inside, opens⟩ := records.exists_slot_of_mem mem
    exact ⟨slot, inside, (opens.literals.exists_iff blind).2 some⟩

end Records

/-- A pattern of one path has a literal that satisfies such a condition exactly if
the path has. -/
theorem exists_literal_ofPath_iff (blind : ValueBlind P) {path : Path}
    (read : ofPaths [path] = .ok p) :
    (∃ literal ∈ p.literals, P literal) ↔ ∃ literal ∈ path.literals, P literal := by
  obtain ⟨seated, same, records⟩ := Records.of_ofPaths read
  obtain ⟨s, rfl, rfl⟩ := List.map_eq_singleton_iff.1 same
  rw [List.flatMap_singleton, List.flatMap_singleton] at records
  rw [exists_literal_iff, records.exists_node_literal_iff blind,
    records.exists_rel_literal_iff blind, Path.literals, ← s.map_descriptor_nodes,
    ← s.map_descriptor_rels]
  simp only [List.mem_append, List.flatMap_map, List.mem_flatMap, or_and_right, exists_or]
  grind

end Pattern

end PropertyGraph
