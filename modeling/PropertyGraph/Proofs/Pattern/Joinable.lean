import PropertyGraph.Proofs.Pattern.Literals
import PropertyGraph.Proofs.Value.Order
import Mathlib.Data.List.Duplicate

/-!
# Paths that can be joined

Paths form a pattern exactly if nothing is wrong with them: every path has the shape
of one, every relationship has a type, literals that belong together agree, and every
name is used for one thing. Reading ends at the first fault it meets, and the error it
answers names a fault of the paths.
-/

namespace PropertyGraph

open Std

/-! ## Faults -/

/-- Literals for one key have values equal in index order. -/
def Agree (literals : List (String × Value)) : Prop :=
  ∀ a ∈ literals, ∀ b ∈ literals, a.1 = b.1 → compare a.2 b.2 = .eq

/-- The literals that descriptors give for a node variable. -/
def literalsOf (nodes : List NodeDescriptor) (name : String) : List (String × Value) :=
  (nodes.filter fun node => node.var = some name).flatMap NodeDescriptor.literals

/-- Literals that belong together, with the name that an error gives them: those for a
node variable, those of an anonymous node and those of a relationship. -/
inductive LiteralGroup (nodes : List NodeDescriptor) (rels : List RelDescriptor) :
    String → List (String × Value) → Prop
  | named (name : String) : LiteralGroup nodes rels name (literalsOf nodes name)
  | anonymous {node : NodeDescriptor} : node ∈ nodes → node.var = none →
    LiteralGroup nodes rels "_" node.literals
  | relationship {rel : RelDescriptor} : rel ∈ rels →
    LiteralGroup nodes rels (rel.var.getD "_") rel.literals

/-- What is wrong with literals that belong together. -/
inductive LiteralFault (shown : String) (literals : List (String × Value)) : PatternError → Prop
  | null {literal : String × Value} : literal ∈ literals → literal.2.isNull = true →
    LiteralFault shown literals (.nullProperty shown literal.1)
  | conflict {a b : String × Value} : a ∈ literals → b ∈ literals → a.1 = b.1 →
    compare a.2 b.2 ≠ .eq → LiteralFault shown literals (.conflictingProperty shown b.1)

/-- What is wrong with descriptors. -/
inductive DescriptorFault (nodes : List NodeDescriptor) (rels : List RelDescriptor) :
    PatternError → Prop
  | untyped {rel : RelDescriptor} : rel ∈ rels → rel.type = "" →
    DescriptorFault nodes rels .missingRelType
  | literals {shown : String} {group : List (String × Value)} {e : PatternError} :
    LiteralGroup nodes rels shown group → LiteralFault shown group e →
    DescriptorFault nodes rels e
  | kinds {node : NodeDescriptor} {rel : RelDescriptor} {name : String} : node ∈ nodes →
    rel ∈ rels → node.var = some name → rel.var = some name →
    DescriptorFault nodes rels (.variableKindConflict name)
  | twice {name : String} : (rels.filterMap RelDescriptor.var).Duplicate name →
    DescriptorFault nodes rels (.duplicateRelVariable name)

/-- What is wrong with paths. -/
inductive PathFault (paths : List Path) : PatternError → Prop
  | noNode : (∀ path ∈ paths, path.nodes = []) → PathFault paths .emptyPattern
  | misshapen {path : Path} : path ∈ paths → ¬path.Shaped →
    PathFault paths (.malformedPath path.nodes.length path.rels.length)
  | descriptor {e : PatternError} :
    DescriptorFault (paths.flatMap Path.nodes) (paths.flatMap Path.rels) e → PathFault paths e

/-- Nothing is wrong with the paths. -/
structure Joinable (paths : List Path) : Prop where
  someNode : ∃ path ∈ paths, path.nodes ≠ []
  shaped : ∀ path ∈ paths, path.Shaped
  typed : ∀ rel ∈ paths.flatMap Path.rels, rel.type ≠ ""
  noNull : ∀ path ∈ paths, ∀ literal ∈ path.literals, literal.2.isNull = false
  named : ∀ name, Agree (literalsOf (paths.flatMap Path.nodes) name)
  anonymous : ∀ node ∈ paths.flatMap Path.nodes, node.var = none → Agree node.literals
  relationships : ∀ rel ∈ paths.flatMap Path.rels, Agree rel.literals
  once : ((paths.flatMap Path.rels).filterMap RelDescriptor.var).Nodup
  apart : ∀ node ∈ paths.flatMap Path.nodes, ∀ rel ∈ paths.flatMap Path.rels, ∀ name,
    node.var = some name → rel.var ≠ some name

variable {nodes nodes' : List NodeDescriptor} {rels rels' : List RelDescriptor}
  {shown : String} {e : PatternError}

theorem mem_literalsOf_iff {name : String} {literal : String × Value} :
    literal ∈ literalsOf nodes name ↔
      ∃ node ∈ nodes, node.var = some name ∧ literal ∈ node.literals := by
  simp only [literalsOf, List.mem_flatMap, List.mem_filter, decide_eq_true_iff, and_assoc]

theorem LiteralFault.mono {literals literals' : List (String × Value)}
    (fault : LiteralFault shown literals e) (sub : literals ⊆ literals') :
    LiteralFault shown literals' e := by
  cases fault with
  | null mem null => exact .null (sub mem) null
  | conflict left right key differ => exact .conflict (sub left) (sub right) key differ

theorem LiteralGroup.mono {group : List (String × Value)}
    (belong : LiteralGroup nodes rels shown group) (subNodes : nodes ⊆ nodes')
    (subRels : rels ⊆ rels') : ∃ group', LiteralGroup nodes' rels' shown group' ∧
      group ⊆ group' := by
  cases belong with
  | named =>
    refine ⟨_, .named shown, fun literal mem => ?_⟩
    obtain ⟨node, inside, given⟩ := mem_literalsOf_iff.1 mem
    exact mem_literalsOf_iff.2 ⟨node, subNodes inside, given⟩
  | anonymous mem unnamed => exact ⟨_, .anonymous (subNodes mem) unnamed, List.Subset.refl _⟩
  | relationship mem => exact ⟨_, .relationship (subRels mem), List.Subset.refl _⟩

/-- The literals of a node are among those for its variable, if it has one. -/
theorem LiteralGroup.exists_of_node {node : NodeDescriptor} (mem : node ∈ nodes) :
    ∃ group, LiteralGroup nodes rels (node.var.getD "_") group ∧ node.literals ⊆ group ∧
      ∀ name, node.var = some name → group = literalsOf nodes name := by
  cases named : node.var with
  | none => exact ⟨_, .anonymous mem named, List.Subset.refl _, fun name some => by cases some⟩
  | some name =>
    refine ⟨_, .named name, fun literal given => ?_, fun name' same => ?_⟩
    · exact mem_literalsOf_iff.2 ⟨node, mem, named, given⟩
    · rw [Option.some.inj same]

/-- A fault stays one when more is read. -/
theorem DescriptorFault.mono (fault : DescriptorFault nodes rels e)
    (subNodes : nodes.Sublist nodes') (subRels : rels.Sublist rels') :
    DescriptorFault nodes' rels' e := by
  cases fault with
  | untyped mem untyped => exact .untyped (subRels.subset mem) untyped
  | literals belong fault =>
    obtain ⟨group, belong, sub⟩ := belong.mono subNodes.subset subRels.subset
    exact .literals belong (fault.mono sub)
  | kinds mem mem' named named' =>
    exact .kinds (subNodes.subset mem) (subRels.subset mem') named named'
  | twice twice => exact .twice (twice.mono_sublist (subRels.filterMap _))

theorem Joinable.agree {paths : List Path} (joinable : Joinable paths)
    {group : List (String × Value)}
    (belong : LiteralGroup (paths.flatMap Path.nodes) (paths.flatMap Path.rels) shown group) :
    Agree group := by
  cases belong with
  | named => exact joinable.named shown
  | anonymous mem unnamed => exact joinable.anonymous _ mem unnamed
  | relationship mem => exact joinable.relationships _ mem

/-- The literals of paths are those that belong to some group. -/
theorem exists_path_iff_group {paths : List Path} {literal : String × Value} :
    (∃ path ∈ paths, literal ∈ path.literals) ↔ ∃ shown group, literal ∈ group ∧
      LiteralGroup (paths.flatMap Path.nodes) (paths.flatMap Path.rels) shown group := by
  constructor
  · intro given
    obtain ⟨path, among, mem⟩ := given
    rcases List.mem_append.1 mem with mem | mem
    · obtain ⟨node, inside, mem⟩ := List.mem_flatMap.1 mem
      obtain ⟨group, belong, sub, -⟩ :=
        LiteralGroup.exists_of_node (List.mem_flatMap.2 ⟨path, among, inside⟩)
      exact ⟨_, group, sub mem, belong⟩
    · obtain ⟨rel, inside, mem⟩ := List.mem_flatMap.1 mem
      exact ⟨_, _, mem, .relationship (List.mem_flatMap.2 ⟨path, among, inside⟩)⟩
  · intro given
    obtain ⟨shown, group, mem, belong⟩ := given
    have ofNode {node : NodeDescriptor} (inside : node ∈ paths.flatMap Path.nodes)
        (mem : literal ∈ node.literals) : ∃ path ∈ paths, literal ∈ path.literals := by
      obtain ⟨path, among, inside⟩ := List.mem_flatMap.1 inside
      exact ⟨path, among, List.mem_append_left _ (List.mem_flatMap.2 ⟨node, inside, mem⟩)⟩
    cases belong with
    | named =>
      obtain ⟨node, inside, -, mem⟩ := mem_literalsOf_iff.1 mem
      exact ofNode inside mem
    | anonymous inside _ => exact ofNode inside mem
    | relationship inside =>
      obtain ⟨path, among, inside⟩ := List.mem_flatMap.1 inside
      exact ⟨path, among, List.mem_append_right _ (List.mem_flatMap.2 ⟨_, inside, mem⟩)⟩

/-- Nothing is wrong with paths that can be joined. -/
theorem Joinable.not_fault {paths : List Path} (joinable : Joinable paths) :
    ¬PathFault paths e := by
  intro fault
  cases fault with
  | noNode none =>
    obtain ⟨path, mem, some⟩ := joinable.someNode
    exact some (none path mem)
  | misshapen mem misshapen => exact misshapen (joinable.shaped _ mem)
  | descriptor fault =>
    cases fault with
    | untyped mem untyped => exact joinable.typed _ mem untyped
    | literals belong fault =>
      cases fault with
      | null mem null =>
        obtain ⟨path, among, mem⟩ := exists_path_iff_group.2 ⟨_, _, mem, belong⟩
        rw [joinable.noNull path among _ mem] at null
        cases null
      | conflict left right key differ =>
        exact differ (joinable.agree belong _ left _ right key)
    | kinds mem mem' named named' => exact joinable.apart _ mem _ mem' _ named named'
    | twice twice => exact twice.not_nodup joinable.once

/-- Nothing is wrong with paths exactly if they have no fault. -/
theorem joinable_iff {paths : List Path} : Joinable paths ↔ ∀ e, ¬PathFault paths e := by
  constructor
  · exact fun joinable e => joinable.not_fault
  · intro clean
    have agree {shown : String} {group : List (String × Value)}
        (belong : LiteralGroup (paths.flatMap Path.nodes) (paths.flatMap Path.rels) shown group) :
        Agree group := fun a left b right key => Decidable.byContradiction fun differ =>
      clean _ (.descriptor (.literals belong (.conflict left right key differ)))
    refine ⟨?_, fun path mem => ?_, fun rel mem untyped => ?_, fun path among literal mem => ?_,
      fun name => agree (.named name), fun node mem unnamed => agree (.anonymous mem unnamed),
      fun rel mem => agree (.relationship mem), ?_, fun node mem rel mem' name named named' => ?_⟩
    · by_contra none
      exact clean _ (.noNode fun path mem => by_contra fun some => none ⟨path, mem, some⟩)
    · by_contra misshapen
      exact clean _ (.misshapen mem misshapen)
    · exact clean _ (.descriptor (.untyped mem untyped))
    · obtain ⟨shown, group, given, belong⟩ := exists_path_iff_group.1 ⟨path, among, mem⟩
      refine Bool.eq_false_iff.2 fun null => ?_
      exact clean _ (.descriptor (.literals belong (.null given null)))
    · refine List.nodup_iff_forall_not_duplicate.2 fun name twice => ?_
      exact clean _ (.descriptor (.twice twice))
    · exact clean _ (.descriptor (.kinds mem mem' named named'))

/-! ## Refused descriptors -/

namespace Pattern

variable {p p' : Pattern}

/-- Literals are refused only if one of them is null or two of them contradict each other.
-/
theorem fault_of_gather {known literals : List (String × Value)}
    (refused : gather shown known literals = .error e) :
    LiteralFault shown (known ++ literals) e := by
  induction literals generalizing known with
  | nil => cases refused
  | cons literal rest ih =>
    have given : literal ∈ known ++ literal :: rest :=
      List.mem_append_right _ List.mem_cons_self
    unfold gather at refused
    split at refused
    · rename_i null
      cases refused
      exact .null given null
    · split at refused
      · rw [List.append_cons]
        exact ih refused
      · rename_i other found
        split at refused
        · refine (ih refused).mono (List.append_subset.2 ⟨List.subset_append_left _ _, ?_⟩)
          exact List.subset_append_of_subset_right _ (List.subset_cons_self _ _)
        · rename_i differ
          cases refused
          exact .conflict (List.mem_append_left _ (List.mem_of_find?_eq_some found)) given
            (beq_iff_eq.1 (List.find?_some found :)) differ

namespace Records

variable {nodes : List NodeMention} {rels : List RelMention}

theorem exists_node_of_nodeSlot? (records : p.Records nodes rels) {name : String}
    (known : (p.nodeSlot? name).isSome = true) :
    ∃ node ∈ nodes.map NodeMention.descriptor, node.var = some name := by
  obtain ⟨slot, known⟩ := Option.isSome_iff_exists.1 known
  obtain ⟨m, mem, -, named⟩ := records.exists_mention_of_var? (var?_of_nodeSlot? known)
  exact ⟨m.descriptor, List.mem_map_of_mem mem, named⟩

theorem exists_rel_of_relSlot? (records : p.Records nodes rels) {name : String}
    (known : (p.relSlot? name).isSome = true) :
    ∃ rel ∈ rels.map RelMention.descriptor, rel.var = some name := by
  obtain ⟨position, known⟩ := Option.isSome_iff_exists.1 known
  obtain ⟨slot, found, named⟩ := Option.bind_eq_some_iff.1 (var?_of_relSlot? known)
  obtain ⟨m, mem, opens⟩ := records.exists_opens_of_mem (List.mem_of_getElem? found)
  exact ⟨m.descriptor, List.mem_map_of_mem mem, opens.var.symm.trans named⟩

/-- What a slot has before a node is read into it was given for the node's variable. -/
theorem known_of_slotFor (records : p.Records nodes rels) {var : Option String} {slot : Nat}
    (read : p.slotFor var = .ok (slot, p')) :
    ∀ literal ∈ (p'.nodes[slot]?.getD ⟨var, [], []⟩).literals, ∃ name, var = some name ∧
      literal ∈ literalsOf (nodes.map NodeMention.descriptor) name := by
  intro literal known
  have inside := List.getElem?_eq_getElem (slotFor_spec read).2
  rw [inside] at known
  rcases slotFor_cases read with ⟨opened, -⟩ | ⟨rfl, name, named, has⟩
  · cases opened
    simp at known
  · refine ⟨name, named, ?_⟩
    have collects := records.collects slot _ inside
    obtain ⟨d, mem, given⟩ := List.mem_flatMap.1 (collects.literals.among _ known)
    have goesBy := var?_of_nodeSlot? has
    rw [Pattern.var?, inside] at goesBy
    obtain ⟨m, inside, -, rfl⟩ := mem_said_iff.1 mem
    exact mem_literalsOf_iff.2 ⟨m.descriptor, List.mem_map_of_mem inside,
      (collects.var _ mem).trans goesBy, given⟩

theorem fault_of_slotFor (records : p.Records nodes rels) {node : NodeDescriptor}
    (refused : p.slotFor node.var = .error e) :
    DescriptorFault (nodes.map NodeMention.descriptor ++ [node])
      (rels.map RelMention.descriptor) e := by
  unfold slotFor at refused
  split at refused
  · cases refused
  · rename_i name named
    split at refused
    · rename_i known
      cases refused
      obtain ⟨rel, mem, named'⟩ := records.exists_rel_of_relSlot? known
      exact .kinds (List.mem_append_right _ List.mem_cons_self) mem named named'
    · split at refused <;> cases refused

theorem fault_of_addNode (records : p.Records nodes rels) {node : NodeDescriptor}
    (refused : p.addNode node = .error e) :
    DescriptorFault (nodes.map NodeMention.descriptor ++ [node])
      (rels.map RelMention.descriptor) e := by
  rcases of_bind_eq_error refused with refused | ⟨⟨slot, q⟩, slotFor, refused⟩
  · exact records.fault_of_slotFor refused
  · rcases of_bind_eq_error refused with refused | ⟨_, _, refused⟩
    · obtain ⟨group, belong, sub, whole⟩ := LiteralGroup.exists_of_node
        (List.mem_append_right (nodes.map NodeMention.descriptor) (List.mem_singleton_self node))
      have fault := fault_of_gather (map_eq_error_iff.1 refused)
      -- What is in the slot already belongs to the group of the node as well.
      refine .literals belong (fault.mono (List.append_subset.2 ⟨fun literal mem => ?_, sub⟩))
      obtain ⟨name, named, given⟩ := records.known_of_slotFor slotFor literal mem
      obtain ⟨other, inside, given⟩ := mem_literalsOf_iff.1 given
      rw [whole name named]
      exact mem_literalsOf_iff.2 ⟨other, List.mem_append_left _ inside, given⟩
    · cases refused

/-- The variable of a relationship is refused only if a node or another relationship has
it. -/
theorem fault_of_checkRelVar (records : p.Records nodes rels) {rel : RelDescriptor}
    (refused : p.checkRelVar rel.var = .error e) :
    DescriptorFault (nodes.map NodeMention.descriptor)
      (rels.map RelMention.descriptor ++ [rel]) e := by
  have last : rel ∈ rels.map RelMention.descriptor ++ [rel] :=
    List.mem_append_right _ List.mem_cons_self
  unfold checkRelVar at refused
  split at refused
  · cases refused
  · rename_i name named
    split at refused
    · rename_i known
      cases refused
      obtain ⟨node, mem, named'⟩ := records.exists_node_of_nodeSlot? known
      exact .kinds mem last named' named
    · split at refused
      · rename_i known
        cases refused
        obtain ⟨other, mem, named'⟩ := records.exists_rel_of_relSlot? known
        have before := List.mem_filterMap.2 ⟨other, mem, named'⟩
        refine .twice (List.duplicate_iff_sublist.2 ?_)
        rw [List.filterMap_append]
        refine List.Sublist.append (List.singleton_sublist.2 before) ?_
        simp [named]
      · cases refused

theorem fault_of_addRel (records : p.Records nodes rels) {rel : RelDescriptor}
    {left right mark : Nat} (refused : p.addRel rel left right mark = .error e) :
    DescriptorFault (nodes.map NodeMention.descriptor)
      (rels.map RelMention.descriptor ++ [rel]) e := by
  have last : rel ∈ rels.map RelMention.descriptor ++ [rel] :=
    List.mem_append_right _ List.mem_cons_self
  unfold Pattern.addRel at refused
  by_cases untyped : rel.type.isEmpty = true
  · rw [if_pos untyped] at refused
    cases refused
    exact .untyped last (String.isEmpty_iff.1 untyped)
  · rw [if_neg untyped] at refused
    rcases of_bind_eq_error refused with refused | ⟨_, _, refused⟩
    · exact records.fault_of_checkRelVar refused
    · rcases of_bind_eq_error refused with refused | ⟨_, _, refused⟩
      · exact .literals (.relationship last) (fault_of_gather refused)
      · cases refused

/-- Hops are refused only over something that is wrong with the descriptors up to there.
-/
theorem fault_of_addHops (records : p.Records nodes rels) (tidy : p.Tidy)
    {hops : List (RelDescriptor × NodeDescriptor)} {left : Nat}
    (refused : p.addHops left hops = .error e) :
    DescriptorFault (nodes.map NodeMention.descriptor ++ hops.map Prod.snd)
      (rels.map RelMention.descriptor ++ hops.map Prod.fst) e := by
  induction hops generalizing p nodes rels left with
  | nil => cases refused
  | cons hop rest ih =>
    rw [List.map_cons, List.map_cons, List.append_cons, List.append_cons (rels.map _)]
    rcases of_bind_eq_error refused with refused | ⟨⟨right, q⟩, node, refused⟩
    · refine (records.fault_of_addNode refused).mono (List.sublist_append_left _ _) ?_
      rw [List.append_assoc]
      exact List.sublist_append_left _ _
    · have records := records.addNode tidy node
      rcases of_bind_eq_error refused with refused | ⟨q', rel, refused⟩
      · have fault := records.fault_of_addRel refused
        rw [List.map_append] at fault
        exact fault.mono (List.sublist_append_left _ _) (List.sublist_append_left _ _)
      · have tidy := (tidy.addNode node).addRel (length_order_addNode node) rel
        have fault := ih (records.addRel rel) tidy refused
        rwa [List.map_append, List.map_append] at fault

/-- A path is refused only over its shape or over something that is wrong with the
descriptors up to its end. -/
theorem fault_of_addPath (records : p.Records nodes rels) (tidy : p.Tidy) {path : Path}
    (refused : p.addPath path = .error e) :
    (¬path.Shaped ∧ e = .malformedPath path.nodes.length path.rels.length) ∨
      DescriptorFault (nodes.map NodeMention.descriptor ++ path.nodes)
        (rels.map RelMention.descriptor ++ path.rels) e := by
  unfold Pattern.addPath at refused
  split at refused
  · rename_i noNode
    split at refused
    · cases refused
    · rename_i someRel
      cases refused
      refine .inl ⟨fun shaped => ?_, by rw [noNode]; rfl⟩
      have lengths := shaped (.inr fun none => someRel (List.isEmpty_iff.2 none))
      rw [noNode] at lengths
      cases lengths
  · rename_i first others begins
    split at refused
    · rename_i lengths
      cases refused
      refine .inl ⟨fun shaped => lengths ?_, rfl⟩
      have shape := shaped (.inl (begins ▸ List.cons_ne_nil _ _))
      rw [begins] at shape
      exact (Nat.succ.inj shape).symm
    · rename_i lengths
      have lengths := Decidable.not_not.1 lengths
      rw [begins, List.append_cons]
      rcases of_bind_eq_error refused with refused | ⟨⟨left, q⟩, node, refused⟩
      · exact .inr ((records.fault_of_addNode refused).mono (List.sublist_append_left _ _)
          (List.sublist_append_left _ _))
      · have fault := (records.addNode tidy node).fault_of_addHops (tidy.addNode node) refused
        rw [List.map_fst_zip (Nat.le_of_eq lengths), List.map_snd_zip (Nat.le_of_eq lengths.symm),
          List.map_append] at fault
        exact .inr fault

/-- Paths are refused only over the shape of one of them or over something that is wrong
with their descriptors. -/
theorem fault_of_addPaths (records : p.Records nodes rels) (tidy : p.Tidy) {paths : List Path}
    (refused : paths.foldlM Pattern.addPath p = .error e) :
    (∃ path ∈ paths, ¬path.Shaped ∧ e = .malformedPath path.nodes.length path.rels.length) ∨
      DescriptorFault (nodes.map NodeMention.descriptor ++ paths.flatMap Path.nodes)
        (rels.map RelMention.descriptor ++ paths.flatMap Path.rels) e := by
  induction paths generalizing p nodes rels with
  | nil => cases refused
  | cons path rest ih =>
    rw [List.flatMap_cons, List.flatMap_cons, ← List.append_assoc, ← List.append_assoc]
    rw [List.foldlM_cons] at refused
    rcases of_bind_eq_error refused with refused | ⟨q, added, later⟩
    · rcases records.fault_of_addPath tidy refused with misshapen | fault
      · exact .inl ⟨path, List.mem_cons_self, misshapen⟩
      · exact .inr (fault.mono (List.sublist_append_left _ _) (List.sublist_append_left _ _))
    · obtain ⟨s, rfl, records⟩ := records.addPath tidy added
      rcases ih records (tidy.addPath added) later with ⟨path, mem, misshapen⟩ | fault
      · exact .inl ⟨path, List.mem_cons_of_mem _ mem, misshapen⟩
      · rw [List.map_append, List.map_append, s.map_descriptor_nodes,
          s.map_descriptor_rels] at fault
        exact .inr fault

/-! ## What is recorded has no fault -/

/-- The variable of a relationship is that of a slot. -/
theorem exists_var?_rel (records : p.Records nodes rels) {m : RelMention} (mem : m ∈ rels) :
    ∃ position, p.var? (.rel position) = m.descriptor.var := by
  obtain ⟨slot, inside, opens⟩ := records.exists_slot_of_mem mem
  obtain ⟨position, found⟩ := List.getElem?_of_mem inside
  refine ⟨position, ?_⟩
  rw [Pattern.var?, found]
  exact opens.var

theorem filterMap_var_rels (records : p.Records nodes rels) :
    (rels.map RelMention.descriptor).filterMap RelDescriptor.var =
      p.rels.filterMap RelSlot.var := by
  have opens := records.rels
  clear records
  generalize p.rels = slots at opens
  induction opens with
  | nil => rfl
  | cons first _ ih => rw [List.map_cons, List.filterMap_cons, List.filterMap_cons, ih, first.var]

/-- Of the literals of a group the pattern has some, and for each of them one that is
equal in index order. -/
theorem covers_group (records : p.Records nodes rels) (tidy : p.Tidy)
    {group : List (String × Value)}
    (belong : LiteralGroup (nodes.map NodeMention.descriptor) (rels.map RelMention.descriptor)
      shown group) :
    ∃ given kept, group ⊆ given ∧ Covers given kept ∧ Gathered kept := by
  -- What is said of a node includes all that is said of its variable.
  have ofMention (m : NodeMention) (mem : m ∈ nodes) : ∃ kept,
      Covers ((said nodes m.slot).flatMap NodeDescriptor.literals) kept ∧ Gathered kept := by
    obtain ⟨slot, found, collects⟩ := records.exists_slot_of_node mem
    exact ⟨_, collects.literals, tidy.nodeLiterals slot (List.mem_of_getElem? found)⟩
  cases belong with
  | named =>
    by_cases absent : literalsOf (nodes.map NodeMention.descriptor) shown = []
    · exact ⟨[], [], absent ▸ List.Subset.refl _, .nil, .nil⟩
    · obtain ⟨literal, given⟩ := List.exists_mem_of_ne_nil _ absent
      obtain ⟨d, mem, named, -⟩ := mem_literalsOf_iff.1 given
      obtain ⟨m, inside, rfl⟩ := List.mem_map.1 mem
      obtain ⟨kept, covers, gathered⟩ := ofMention m inside
      refine ⟨_, kept, fun other given => ?_, covers, gathered⟩
      obtain ⟨d', mem', named', given⟩ := mem_literalsOf_iff.1 given
      obtain ⟨m', inside', rfl⟩ := List.mem_map.1 mem'
      have same := tidy.unique _ _ shown ((records.var?_node inside').trans named')
        ((records.var?_node inside).trans named)
      exact List.mem_flatMap.2
        ⟨_, mem_said_iff.2 ⟨m', inside', SlotRef.node.inj same, rfl⟩, given⟩
  | anonymous mem _ =>
    obtain ⟨m, inside, rfl⟩ := List.mem_map.1 mem
    obtain ⟨kept, covers, gathered⟩ := ofMention m inside
    exact ⟨_, kept, fun other given => List.mem_flatMap.2 ⟨_, mem_said inside, given⟩,
      covers, gathered⟩
  | relationship mem =>
    obtain ⟨m, recorded, rfl⟩ := List.mem_map.1 mem
    obtain ⟨slot, inside, opens⟩ := records.exists_slot_of_mem recorded
    exact ⟨_, _, List.Subset.refl _, opens.literals, tidy.relLiterals slot inside⟩

theorem no_literalFault {given kept group : List (String × Value)} (sub : group ⊆ given)
    (covers : Covers given kept) (gathered : Gathered kept) : ¬LiteralFault shown group e := by
  intro fault
  cases fault with
  | null mem null =>
    obtain ⟨first, inside, -, equal⟩ := covers.each _ (sub mem)
    rw [← Value.isNull_congr equal, gathered.noNull first inside] at null
    cases null
  | conflict left right key differ =>
    obtain ⟨first, inside, key₁, equal₁⟩ := covers.each _ (sub left)
    obtain ⟨first', inside', key₂, equal₂⟩ := covers.each _ (sub right)
    have same := List.inj_on_of_nodup_map gathered.keys inside inside'
      (key₁.trans (key.trans key₂.symm))
    subst same
    exact differ (TransCmp.eq_trans (OrientedCmp.eq_symm equal₁) equal₂)

/-- Nothing is wrong with descriptors that a pattern could be read from. -/
theorem no_fault (records : p.Records nodes rels) (tidy : p.Tidy) (wellFormed : p.WellFormed) :
    ¬DescriptorFault (nodes.map NodeMention.descriptor) (rels.map RelMention.descriptor) e := by
  intro fault
  cases fault with
  | untyped mem untyped =>
    obtain ⟨m, recorded, rfl⟩ := List.mem_map.1 mem
    obtain ⟨slot, inside, opens⟩ := records.exists_slot_of_mem recorded
    have typed := wellFormed.typed slot inside
    rw [opens.type, untyped] at typed
    cases typed
  | literals belong fault =>
    obtain ⟨_, _, sub, covers, gathered⟩ := records.covers_group tidy belong
    exact no_literalFault sub covers gathered fault
  | kinds mem mem' named named' =>
    obtain ⟨m, recorded, rfl⟩ := List.mem_map.1 mem
    obtain ⟨m', recorded', rfl⟩ := List.mem_map.1 mem'
    obtain ⟨position, goesBy⟩ := records.exists_var?_rel recorded'
    cases tidy.unique _ _ _ ((records.var?_node recorded).trans named) (goesBy.trans named')
  | twice twice =>
    rw [records.filterMap_var_rels] at twice
    exact twice.not_nodup tidy.nodup_rel_vars

end Records

/-! ## Joining -/

theorem not_fault_of_ofPaths {paths : List Path} (read : ofPaths paths = .ok p) :
    ¬PathFault paths e := by
  obtain ⟨seated, rfl, records⟩ := Records.of_ofPaths read
  intro fault
  cases fault with
  | noNode none =>
    unfold ofPaths at read
    rw [if_pos (List.all_eq_true.2 fun path mem => List.isEmpty_iff.2 (none path mem))] at read
    cases read
  | misshapen mem misshapen =>
    obtain ⟨s, -, rfl⟩ := List.mem_map.1 mem
    exact misshapen s.shaped
  | descriptor fault =>
    refine records.no_fault (tidy_of_ofPaths read) (wellFormed_of_ofPaths read) (e := e) ?_
    simpa only [List.flatMap_map, List.map_flatMap, SeatedPath.map_descriptor_nodes,
      SeatedPath.map_descriptor_rels] using fault

/-- Refused paths have the fault that the error names. -/
theorem fault_of_ofPaths {paths : List Path} (refused : ofPaths paths = .error e) :
    PathFault paths e := by
  unfold ofPaths at refused
  split at refused
  · rename_i none
    cases refused
    exact .noNode fun path mem => List.isEmpty_iff.1 (List.all_eq_true.1 none path mem)
  · rcases Records.empty.fault_of_addPaths .empty refused with ⟨path, mem, misshapen, rfl⟩ | fault
    · exact .misshapen mem misshapen
    · exact .descriptor fault

/-- Paths form a pattern exactly if nothing is wrong with them; the error for any
others names something that is. -/
theorem ofPaths_ok_iff_joinable (paths : List Path) :
    ((∃ p, ofPaths paths = .ok p) ↔ Joinable paths) ∧
      ∀ e, ofPaths paths = .error e → PathFault paths e := by
  refine ⟨⟨fun formed => ?_, fun joinable => ?_⟩, fun e refused => fault_of_ofPaths refused⟩
  · obtain ⟨p, read⟩ := formed
    exact joinable_iff.2 fun e => not_fault_of_ofPaths read
  · cases read : ofPaths paths with
    | ok p => exact ⟨p, rfl⟩
    | error e => exact (joinable_iff.1 joinable e (fault_of_ofPaths read)).elim

theorem ofPaths_ok_iff_joinable_on_repeated_variable :
    let person : NodeDescriptor := ⟨some "a", some "Person", [("v", .int 1)]⟩
    let knows : RelDescriptor := ⟨some "r", "KNOWS", .incoming, []⟩
    let paths (v : Value) : List Path :=
      [⟨[person, ⟨none, none, []⟩], [knows]⟩, ⟨[⟨some "a", some "Admin", [("v", v)]⟩], []⟩]
    Joinable (paths (.float (.ofInt 1))) ∧
      ofPaths (paths (.int 2)) = .error (.conflictingProperty "a" "v") ∧
      PathFault (paths (.int 2)) (.conflictingProperty "a" "v") := by
  intro person knows paths
  have formed : ofPaths (paths (.float (.ofInt 1))) = .ok
      ⟨[⟨some "a", ["Person", "Admin"], [("v", .int 1)]⟩, ⟨none, [], []⟩],
        [⟨some "r", "KNOWS", 1, 0, []⟩], [.node 0, .rel 0, .node 1]⟩ := by decide +kernel
  have refused : ofPaths (paths (.int 2)) = .error (.conflictingProperty "a" "v") := by
    decide +kernel
  exact ⟨(ofPaths_ok_iff_joinable _).1.1 ⟨_, formed⟩, refused,
    (ofPaths_ok_iff_joinable _).2 _ refused⟩

end Pattern

end PropertyGraph
