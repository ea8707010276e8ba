import PropertyGraph.Proofs.Ordered.Sort
import PropertyGraph.Proofs.Pattern.Tidy

/-!
# Mentions

Reading gives every node that a path mentions a slot, and every relationship a slot
between those of its neighbours. A pattern records the mentions that were read: a
variable is one slot wherever it is mentioned, any other mention is a slot of its
own, and a slot has what its mentions say of it, up to literals equal in index
order. Each node and each relationship that is read is recorded with the ones read
before it.
-/

namespace PropertyGraph

open Std

/-- A node that a path mentions, with the slot it was given. -/
structure NodeMention where
  descriptor : NodeDescriptor
  slot : Nat

/-- A relationship that a path mentions, with the slots of the nodes on its left and
on its right. -/
structure RelMention where
  descriptor : RelDescriptor
  left : Nat
  right : Nat

/-- The slot of the node that the relationship leads from. -/
def RelMention.source (m : RelMention) : Nat := m.descriptor.source m.left m.right

/-- The slot of the node that the relationship leads to. -/
def RelMention.target (m : RelMention) : Nat := m.descriptor.target m.left m.right

/-- All that mentions say of one slot. -/
def said (mentions : List NodeMention) (slot : Nat) : List NodeDescriptor :=
  (mentions.filter fun m => m.slot = slot).map NodeMention.descriptor

theorem mem_said_iff {mentions : List NodeMention} {slot : Nat} {d : NodeDescriptor} :
    d ∈ said mentions slot ↔ ∃ m ∈ mentions, m.slot = slot ∧ m.descriptor = d := by
  simp only [said, List.mem_map, List.mem_filter, decide_eq_true_iff, and_assoc]

theorem mem_said {mentions : List NodeMention} {m : NodeMention} (mem : m ∈ mentions) :
    m.descriptor ∈ said mentions m.slot :=
  mem_said_iff.2 ⟨m, mem, rfl, rfl⟩

theorem said_concat (mentions : List NodeMention) (m : NodeMention) (slot : Nat) :
    said (mentions ++ [m]) slot =
      if m.slot = slot then said mentions slot ++ [m.descriptor] else said mentions slot := by
  by_cases here : m.slot = slot <;> simp [said, here]

/-- Nothing is said of a slot that no mention has. -/
theorem said_eq_nil {mentions : List NodeMention} {slot : Nat}
    (other : ∀ m ∈ mentions, m.slot ≠ slot) : said mentions slot = [] := by
  rw [List.eq_nil_iff_forall_not_mem]
  intro d mem
  obtain ⟨m, mem, here, -⟩ := mem_said_iff.1 mem
  exact other m mem here

/-! ## Paths with slots -/

/-- The nodes of a path with the slots they were given. -/
def seatNodes (nodes : List NodeDescriptor) (seats : List Nat) : List NodeMention :=
  List.zipWith NodeMention.mk nodes seats

/-- The relationships of a path, each between the slots of its neighbours. -/
def seatRels (rels : List RelDescriptor) (seats : List Nat) : List RelMention :=
  List.zipWith (fun rel ends => ⟨rel, ends.1, ends.2⟩) rels (seats.zip seats.tail)

/-- A path of anything has one more node than relationships. -/
def Path.Shaped (path : Path) : Prop :=
  path.nodes ≠ [] ∨ path.rels ≠ [] → path.nodes.length = path.rels.length + 1

/-- A path and a slot for each of its nodes. -/
structure SeatedPath where
  path : Path
  seats : List Nat
  each : seats.length = path.nodes.length
  shaped : path.Shaped

namespace SeatedPath

variable (s : SeatedPath)

/-- The nodes that the path mentions. -/
def nodes : List NodeMention := seatNodes s.path.nodes s.seats

/-- The relationships that the path mentions. -/
def rels : List RelMention := seatRels s.path.rels s.seats

theorem map_descriptor_nodes : s.nodes.map NodeMention.descriptor = s.path.nodes := by
  rw [nodes, seatNodes, List.map_zipWith, ← List.map_uncurry_zip_eq_zipWith]
  exact List.map_fst_zip (Nat.le_of_eq s.each.symm)

theorem map_descriptor_rels : s.rels.map RelMention.descriptor = s.path.rels := by
  rw [rels, seatRels, List.map_zipWith, ← List.map_uncurry_zip_eq_zipWith]
  refine List.map_fst_zip ?_
  by_cases none : s.path.rels = []
  · simp [none]
  · have lengths := s.shaped (.inr none)
    rw [List.length_zip, List.length_tail, s.each]
    omega

end SeatedPath

/-! ## Literals -/

/-- What is kept of the literals given: some of them, and for each one that is given
one of its key with a value equal in index order. -/
structure Covers (given kept : List (String × Value)) : Prop where
  among : ∀ literal ∈ kept, literal ∈ given
  each : ∀ literal ∈ given, ∃ first ∈ kept, first.1 = literal.1 ∧ compare first.2 literal.2 = .eq

namespace Covers

variable {given kept : List (String × Value)} {literal : String × Value}

theorem nil : Covers [] [] := ⟨fun _ mem => mem, fun _ mem => by cases mem⟩

theorem keep (covers : Covers given kept) (literal : String × Value) :
    Covers (given ++ [literal]) (kept ++ [literal]) where
  among other mem := by
    rcases List.mem_append.1 mem with mem | mem
    · exact List.mem_append_left _ (covers.among other mem)
    · exact List.mem_append_right _ mem
  each other mem := by
    rcases List.mem_append.1 mem with mem | mem
    · obtain ⟨first, kept, same⟩ := covers.each other mem
      exact ⟨first, List.mem_append_left _ kept, same⟩
    · cases List.mem_singleton.1 mem
      exact ⟨literal, List.mem_append_right _ mem, rfl, ReflCmp.compare_self⟩

theorem skip (covers : Covers given kept) {first : String × Value} (mem : first ∈ kept)
    (key : first.1 = literal.1) (equal : compare first.2 literal.2 = .eq) :
    Covers (given ++ [literal]) kept where
  among other mem := List.mem_append_left _ (covers.among other mem)
  each other mem' := by
    rcases List.mem_append.1 mem' with mem' | mem'
    · exact covers.each other mem'
    · cases List.mem_singleton.1 mem'
      exact ⟨first, mem, key, equal⟩

end Covers

namespace Pattern

/-- Gathering drops only literals whose key is there already, with an equal value. -/
theorem gather_covers {var : String} {given known literals all : List (String × Value)}
    (covers : Covers given known) (read : gather var known literals = .ok all) :
    Covers (given ++ literals) all := by
  induction literals generalizing given known with
  | nil =>
    cases read
    rwa [List.append_nil]
  | cons literal rest ih =>
    rw [List.append_cons]
    unfold gather at read
    split at read
    · cases read
    · split at read
      · exact ih (covers.keep literal) read
      · rename_i other found
        split at read
        · rename_i equal
          exact ih (covers.skip (List.mem_of_find?_eq_some found)
            (beq_iff_eq.1 (List.find?_some found :)) equal) read
        · cases read

end Pattern

/-! ## Slots -/

/-- The slot has the labels of the descriptors, keeps their literals and goes by
their variable. -/
structure NodeSlot.Collects (slot : NodeSlot) (descriptors : List NodeDescriptor) : Prop where
  var : ∀ d ∈ descriptors, d.var = slot.var
  labels : ∀ label, label ∈ slot.labels ↔ ∃ d ∈ descriptors, d.label = some label
  literals : Covers (descriptors.flatMap NodeDescriptor.literals) slot.literals

/-- The relationship slot is the one of the mention. -/
structure RelMention.Opens (m : RelMention) (slot : RelSlot) : Prop where
  var : slot.var = m.descriptor.var
  type : slot.type = m.descriptor.type
  source : slot.source = m.source
  target : slot.target = m.target
  literals : Covers m.descriptor.literals slot.literals

theorem NodeSlot.Collects.blank (var : Option String) : Collects ⟨var, [], []⟩ [] where
  var _ mem := by cases mem
  labels label := by simp
  literals := .nil

namespace Pattern

variable {p p' : Pattern}

/-- Describing a slot once more adds what the descriptor says and loses nothing. -/
theorem describe_collects {old described : NodeSlot} {node : NodeDescriptor}
    {descriptors : List NodeDescriptor} (collects : old.Collects descriptors)
    (same : node.var = old.var) (read : describe old node = .ok described) :
    described.Collects (descriptors ++ [node]) := by
  obtain ⟨literals, gathered, rfl⟩ := map_eq_ok_iff.1 read
  refine ⟨fun d mem => ?_, fun label => ?_, ?_⟩
  · rcases List.mem_append.1 mem with mem | mem
    · exact collects.var d mem
    · rw [List.mem_singleton.1 mem]
      exact same
  · have before := collects.labels label
    simp only [List.mem_append, List.mem_singleton, or_and_right, exists_or, exists_eq_left,
      ← before]
    cases given : node.label with
    | none => simp
    | some new =>
      dsimp only
      split
      · rename_i known
        have known : new ∈ old.labels := List.contains_iff_mem.1 known
        rw [Option.some.injEq]
        exact ⟨.inl, fun either => either.elim id fun same => same ▸ known⟩
      · simp only [List.mem_append, List.mem_singleton, Option.some.injEq, eq_comm]
  · rw [List.flatMap_append, List.flatMap_singleton]
    exact gather_covers collects.literals gathered

/-! ## What a pattern records -/

/-- The pattern was read from the mentions: every slot is mentioned and has what is
said of it, two node mentions share a slot exactly if they have one variable, and
the relationship mentions open the relationship slots in order. -/
structure Records (p : Pattern) (nodes : List NodeMention) (rels : List RelMention) : Prop where
  inside : ∀ m ∈ nodes, m.slot < p.nodes.length
  mentioned : ∀ k : Nat, k < p.nodes.length → ∃ m ∈ nodes, m.slot = k
  collects : ∀ (k : Nat) (slot : NodeSlot), p.nodes[k]? = some slot →
    slot.Collects (said nodes k)
  shared : nodes.Pairwise fun m m' => m.slot = m'.slot ↔
    m.descriptor.var = m'.descriptor.var ∧ m.descriptor.var ≠ none
  rels : List.Forall₂ RelMention.Opens rels p.rels

namespace Records

variable {nodes : List NodeMention} {rels : List RelMention}

theorem empty : empty.Records [] [] where
  inside _ mem := by cases mem
  mentioned _ inside := by cases inside
  collects _ _ found := by cases found
  shared := .nil
  rels := .nil

theorem exists_slot_of_node (records : p.Records nodes rels) {m : NodeMention} (mem : m ∈ nodes) :
    ∃ slot, p.nodes[m.slot]? = some slot ∧ slot.Collects (said nodes m.slot) := by
  have found := List.getElem?_eq_getElem (records.inside m mem)
  exact ⟨_, found, records.collects m.slot _ found⟩

/-- A slot goes by the variable of its mentions. -/
theorem var?_node (records : p.Records nodes rels) {m : NodeMention} (mem : m ∈ nodes) :
    p.var? (.node m.slot) = m.descriptor.var := by
  obtain ⟨slot, found, collects⟩ := records.exists_slot_of_node mem
  rw [Pattern.var?, found, Option.bind_some]
  exact (collects.var _ (mem_said mem)).symm

theorem exists_mention_of_var? (records : p.Records nodes rels) {k : Nat} {name : String}
    (named : p.var? (.node k) = some name) : ∃ m ∈ nodes, m.slot = k ∧
      m.descriptor.var = some name := by
  obtain ⟨m, mem, rfl⟩ := records.mentioned k (has_of_var? named)
  exact ⟨m, mem, rfl, (records.var?_node mem).symm.trans named⟩

theorem exists_opens_of_mem (records : p.Records nodes rels) {slot : RelSlot}
    (mem : slot ∈ p.rels) : ∃ m ∈ rels, m.Opens slot :=
  exists_of_forall₂ records.rels.flip mem

theorem exists_slot_of_mem (records : p.Records nodes rels) {m : RelMention} (mem : m ∈ rels) :
    ∃ slot ∈ p.rels, m.Opens slot :=
  exists_of_forall₂ records.rels mem

/-! ## Reading a node -/

/-- One more mention of a node, which changes or opens the slot it was given. -/
theorem addMention (records : p.Records nodes rels) {slots : List NodeSlot} {slot : Nat}
    {described : NodeSlot} {node : NodeDescriptor} (here : slots[slot]? = some described)
    (elsewhere : ∀ k, k ≠ slot → slots[k]? = p.nodes[k]?)
    (collects : described.Collects (said nodes slot ++ [node]))
    (shares : ∀ m ∈ nodes, m.slot = slot ↔
      m.descriptor.var = node.var ∧ m.descriptor.var ≠ none) (order : List SlotRef) :
    Records ⟨slots, p.rels, order⟩ (nodes ++ [⟨node, slot⟩]) rels where
  inside m mem := by
    by_cases same : m.slot = slot
    · rw [same]
      exact (List.getElem?_eq_some_iff.1 here).1
    · rcases List.mem_append.1 mem with mem | mem
      · have found := List.getElem?_eq_getElem (records.inside m mem)
        rw [← elsewhere m.slot same] at found
        exact (List.getElem?_eq_some_iff.1 found).1
      · exact (same (by rw [List.mem_singleton.1 mem])).elim
  mentioned k inside := by
    by_cases same : k = slot
    · exact ⟨_, List.mem_append_right _ List.mem_cons_self, same.symm⟩
    · have found := List.getElem?_eq_getElem inside
      rw [elsewhere k same] at found
      obtain ⟨m, mem, has⟩ := records.mentioned k (List.getElem?_eq_some_iff.1 found).1
      exact ⟨m, List.mem_append_left _ mem, has⟩
  collects k slot' found := by
    rw [said_concat]
    split
    · rename_i same
      subst same
      cases here.symm.trans found
      exact collects
    · rename_i other
      exact records.collects k slot' ((elsewhere k fun same => other same.symm).symm.trans found)
  shared := by
    refine List.pairwise_append.2 ⟨records.shared, List.pairwise_singleton _ _, ?_⟩
    intro m mem m' mem'
    rw [List.mem_singleton.1 mem']
    exact shares m mem
  rels := records.rels

/-- Reading a node records one more mention, of the slot of its variable if there is one.
-/
theorem addNode (records : p.Records nodes rels) (tidy : p.Tidy) {node : NodeDescriptor}
    {slot : Nat} (read : p.addNode node = .ok (slot, p')) :
    p'.Records (nodes ++ [⟨node, slot⟩]) rels := by
  obtain ⟨q, old, described, slotFor, found, describes, rfl⟩ := of_addNode read
  have inside := (List.getElem?_eq_some_iff.1 found).1
  rcases slotFor_cases slotFor with ⟨opened, fresh⟩ | ⟨rfl, name, named, known⟩
  · cases opened
    have apart : ∀ m ∈ nodes, m.slot ≠ p.nodes.length := fun m mem =>
      Nat.ne_of_lt (records.inside m mem)
    have blank : old = ⟨node.var, [], []⟩ := by
      simpa [openSlot] using found.symm
    subst blank
    refine records.addMention (List.getElem?_set_self inside) (fun k other => ?_) ?_
      (fun m mem => ?_) _
    · rw [List.getElem?_set_ne (Ne.symm other)]
      rcases Nat.lt_or_gt_of_ne other with before | after
      · exact List.getElem?_append_left before
      · rw [List.getElem?_eq_none (Nat.le_of_lt after), List.getElem?_eq_none]
        rw [List.length_append]
        exact after
    · rw [said_eq_nil apart]
      exact describe_collects (.blank _) rfl describes
    · refine iff_of_false (apart m mem) fun same => ?_
      obtain ⟨name, named⟩ := Option.ne_none_iff_exists'.1 same.2
      exact unused_iff.2 (fresh name (same.1.symm.trans named)) _
        ((records.var?_node mem).trans named)
  · have goesBy := var?_of_nodeSlot? known
    have varOld : old.var = some name := by
      rwa [Pattern.var?, found] at goesBy
    refine records.addMention (List.getElem?_set_self inside)
      (fun k other => List.getElem?_set_ne (Ne.symm other))
      (describe_collects (records.collects slot old found) (named.trans varOld.symm) describes)
      (fun m mem => ?_) _
    rw [named, ← records.var?_node mem]
    constructor
    · intro same
      rw [same, goesBy]
      exact ⟨rfl, fun none => by cases none⟩
    · intro same
      exact SlotRef.node.inj (tidy.unique _ _ name same.1 goesBy)

/-! ## Reading relationships and paths -/

theorem addRel (records : p.Records nodes rels) {rel : RelDescriptor} {left right mark : Nat}
    (read : p.addRel rel left right mark = .ok p') :
    p'.Records nodes (rels ++ [⟨rel, left, right⟩]) := by
  obtain ⟨literals, -, -, gathered, rfl⟩ := of_addRel read
  refine ⟨records.inside, records.mentioned, records.collects, records.shared,
    List.rel_append records.rels (.cons ⟨rfl, rfl, rfl, rfl, ?_⟩ .nil)⟩
  have covers := gather_covers .nil gathered
  rwa [List.nil_append] at covers

/-- The hops of a path give their right-hand nodes slots. -/
theorem addHops (records : p.Records nodes rels) (tidy : p.Tidy)
    {hops : List (RelDescriptor × NodeDescriptor)} {left : Nat}
    (read : p.addHops left hops = .ok p') :
    ∃ seats : List Nat, seats.length = hops.length ∧
      p'.Records (nodes ++ seatNodes (hops.map Prod.snd) seats)
        (rels ++ seatRels (hops.map Prod.fst) (left :: seats)) := by
  induction hops generalizing p nodes rels left with
  | nil =>
    cases read
    exact ⟨[], rfl, by simpa [seatNodes, seatRels] using records⟩
  | cons hop rest ih =>
    obtain ⟨⟨right, q⟩, node, read⟩ := of_bind_eq_ok read
    obtain ⟨q', rel, read⟩ := of_bind_eq_ok read
    have tidy' := (tidy.addNode node).addRel (length_order_addNode node) rel
    obtain ⟨seats, lengths, later⟩ := ih ((records.addNode tidy node).addRel rel) tidy' read
    refine ⟨right :: seats, congrArg Nat.succ lengths, ?_⟩
    rw [List.append_assoc, List.append_assoc] at later
    exact later

/-- Reading a path records a mention for each of its nodes and relationships. -/
theorem addPath (records : p.Records nodes rels) (tidy : p.Tidy) {path : Path}
    (read : p.addPath path = .ok p') :
    ∃ s : SeatedPath, s.path = path ∧ p'.Records (nodes ++ s.nodes) (rels ++ s.rels) := by
  unfold Pattern.addPath at read
  split at read
  · rename_i noNode
    split at read
    · rename_i noRel
      cases read
      have noRel := List.isEmpty_iff.1 noRel
      refine ⟨⟨path, [], congrArg List.length noNode.symm, fun some => ?_⟩, rfl, ?_⟩
      · exact (some.elim (· noNode) (· noRel)).elim
      · simpa [SeatedPath.nodes, SeatedPath.rels, seatNodes, seatRels] using records
    · cases read
  · rename_i first others begins
    split at read
    · cases read
    · rename_i lengths
      have lengths := Decidable.not_not.1 lengths
      obtain ⟨⟨left, q⟩, node, read⟩ := of_bind_eq_ok read
      obtain ⟨seats, each, later⟩ := (records.addNode tidy node).addHops (tidy.addNode node) read
      rw [List.map_fst_zip (Nat.le_of_eq lengths), List.map_snd_zip (Nat.le_of_eq lengths.symm),
        List.append_assoc] at later
      rw [List.length_zip, lengths, Nat.min_self] at each
      refine ⟨⟨path, left :: seats, ?_, fun _ => ?_⟩, rfl, ?_⟩
      · rw [begins, List.length_cons, List.length_cons, each]
      · rw [begins, List.length_cons, lengths]
      · show p'.Records (nodes ++ seatNodes path.nodes (left :: seats))
          (rels ++ seatRels path.rels (left :: seats))
        rw [begins]
        exact later

theorem addPaths (records : p.Records nodes rels) (tidy : p.Tidy) {paths : List Path}
    (read : paths.foldlM Pattern.addPath p = .ok p') :
    ∃ seated : List SeatedPath, seated.map SeatedPath.path = paths ∧
      p'.Records (nodes ++ seated.flatMap SeatedPath.nodes)
        (rels ++ seated.flatMap SeatedPath.rels) := by
  induction paths generalizing p nodes rels with
  | nil =>
    cases read
    exact ⟨[], rfl, by simpa using records⟩
  | cons path rest ih =>
    rw [List.foldlM_cons] at read
    obtain ⟨q, added, later⟩ := of_bind_eq_ok read
    obtain ⟨s, rfl, records⟩ := records.addPath tidy added
    obtain ⟨seated, rfl, records⟩ := ih records (tidy.addPath added) later
    refine ⟨s :: seated, rfl, ?_⟩
    rw [List.append_assoc, List.append_assoc] at records
    exact records

/-- Joining paths gives every node they mention a slot, and records the mentions. -/
theorem of_ofPaths {paths : List Path} (read : ofPaths paths = .ok p) :
    ∃ seated : List SeatedPath, seated.map SeatedPath.path = paths ∧
      p.Records (seated.flatMap SeatedPath.nodes) (seated.flatMap SeatedPath.rels) := by
  unfold ofPaths at read
  split at read
  · cases read
  · exact empty.addPaths .empty read

end Records

end Pattern

end PropertyGraph
