import PropertyGraph.Proofs.Pattern.Tidy

/-!
# The columns of a pattern

The columns of a pattern are its variables with the kinds of entity they stand for,
in the order of its slots. They are what the paths name from left to right, each at
its first occurrence: the slot of a relationship is listed where the reading was
before the node on its right, and a variable that has a slot lists nothing again.
-/

namespace PropertyGraph

/-- A name with the kind of entity that it stands for. -/
abbrev Column := String × EntityKind

/-! ## What paths name -/

/-- What a node is named. -/
def NodeDescriptor.column? (node : NodeDescriptor) : Option Column :=
  node.var.map fun name => (name, .node)

/-- What a relationship is named. -/
def RelDescriptor.column? (rel : RelDescriptor) : Option Column :=
  rel.var.map fun name => (name, .relationship)

/-- What nodes and the relationships between them are named, read in turn. -/
def readColumns : List NodeDescriptor → List RelDescriptor → List Column
  | [], _ => []
  | node :: _, [] => node.column?.toList
  | node :: nodes, rel :: rels =>
    node.column?.toList ++ rel.column?.toList ++ readColumns nodes rels

/-- What a path names, from left to right. -/
def Path.columns (path : Path) : List Column := readColumns path.nodes path.rels

/-- What a hop names: the relationship and then the node on its right. -/
def hopColumns (hop : RelDescriptor × NodeDescriptor) : List Column :=
  hop.1.column?.toList ++ hop.2.column?.toList

theorem readColumns_cons (first : NodeDescriptor) {others : List NodeDescriptor}
    {rels : List RelDescriptor} (lengths : rels.length = others.length) :
    readColumns (first :: others) rels =
      first.column?.toList ++ (rels.zip others).flatMap hopColumns := by
  induction others generalizing first rels with
  | nil =>
    rw [List.length_eq_zero_iff.1 lengths]
    simp [readColumns]
  | cons second others ih =>
    cases rels with
    | nil => cases lengths
    | cons rel rels =>
      rw [readColumns, ih second (Nat.succ.inj lengths), List.zip_cons_cons, List.flatMap_cons,
        hopColumns]
      simp only [List.append_assoc]

/-! ## First occurrences -/

/-- One more element is a first occurrence unless it occurs before. -/
theorem eraseDups_append_toList {α : Type} [BEq α] [LawfulBEq α] (as : List α) (a? : Option α) :
    (as ++ a?.toList).eraseDups =
      as.eraseDups ++ (a?.filter fun a => a ∉ as.eraseDups).toList := by
  rw [List.eraseDups_append]
  cases a? with
  | none => rfl
  | some a =>
    rw [Option.filter_some]
    by_cases mem : a ∈ as
    · simp [List.removeAll, mem]
    · simp [List.removeAll, mem, List.eraseDups_cons]

theorem insertIdx_length_append {α : Type} (as bs : List α) (a : α) :
    (as ++ bs).insertIdx as.length a = as ++ a :: bs := by
  induction as with
  | nil => rfl
  | cons first rest ih => exact congrArg (first :: ·) ih

/-! ## Columns -/

/-- The kind of entity that a slot is for. -/
def SlotRef.kind : SlotRef → EntityKind
  | .node _ => .node
  | .rel _ => .relationship

namespace Pattern

variable {p p' q : Pattern}

/-- The column of a slot. -/
def column? (p : Pattern) (place : SlotRef) : Option Column :=
  (p.var? place).map fun name => (name, place.kind)

/-- The columns, in the order of the slots. -/
def columns (p : Pattern) : List Column := p.order.filterMap p.column?

theorem Tidy.mem_columns_iff (tidy : p.Tidy) {name : String} {kind : EntityKind} :
    (name, kind) ∈ p.columns ↔ ∃ place, p.var? place = some name ∧ place.kind = kind := by
  rw [columns, List.mem_filterMap]
  constructor
  · rintro ⟨place, -, listed⟩
    obtain ⟨_, named, same⟩ := Option.map_eq_some_iff.1 listed
    cases same
    exact ⟨place, named, rfl⟩
  · rintro ⟨place, named, rfl⟩
    refine ⟨place, (tidy.listed place).2 (has_of_var? named), ?_⟩
    rw [column?, named]
    rfl

theorem Tidy.not_mem_columns (tidy : p.Tidy) {name : String} (unused : p.Unused name)
    (kind : EntityKind) : (name, kind) ∉ p.columns := by
  rw [tidy.mem_columns_iff]
  rintro ⟨place, named, -⟩
  exact unused place named

/-! ## Reading nodes -/

/-- A column is listed last, in a slot opened for it, unless it is listed already. -/
structure Lists (p : Pattern) (new? : Option Column) (p' : Pattern) (opened : List SlotRef) :
    Prop where
  order : p'.order = p.order ++ opened
  kept : ∀ place ∈ p.order, p'.column? place = p.column? place
  opened : opened.filterMap p'.column? = (new?.filter fun c => c ∉ p.columns).toList

theorem Lists.columns {new? : Option Column} {opened : List SlotRef}
    (lists : p.Lists new? p' opened) :
    p'.columns = p.columns ++ (new?.filter fun c => c ∉ p.columns).toList := by
  rw [Pattern.columns, lists.order, List.filterMap_append, lists.opened]
  exact congrArg (· ++ _) (List.filterMap_congr lists.kept)

theorem column?_openSlot (var : Option String) (place : SlotRef) :
    (p.openSlot var).2.column? place =
      if place = .node p.nodes.length then var.map fun name => (name, .node)
      else p.column? place := by
  rw [column?, var?_openSlot]
  split
  · rename_i here
    rw [here]
    rfl
  · rfl

/-- A node that is read lists its variable as a column, unless it is listed. -/
theorem Tidy.lists_slotFor (tidy : p.Tidy) {var : Option String} {slot : Nat}
    (read : p.slotFor var = .ok (slot, q)) :
    ∃ opened, p.Lists (var.map fun name => (name, .node)) q opened := by
  rcases slotFor_cases read with ⟨opened, fresh⟩ | ⟨rfl, name, rfl, known⟩
  · obtain rfl : (p.openSlot var).2 = q := congrArg Prod.snd opened
    refine ⟨[.node p.nodes.length], rfl, fun place mem => ?_, ?_⟩
    · have apart : place ≠ .node p.nodes.length := fun here =>
        Nat.lt_irrefl _ ((tidy.listed _).1 (here ▸ mem))
      rw [column?_openSlot, if_neg apart]
    · rw [List.filterMap_cons, column?_openSlot, if_pos rfl]
      cases var with
      | none => rfl
      | some name =>
        have new := tidy.not_mem_columns (unused_iff.2 (fresh name rfl)) .node
        rw [Option.map_some, Option.filter_some, if_pos (decide_eq_true new)]
        rfl
  · have there : (name, EntityKind.node) ∈ q.columns :=
      tidy.mem_columns_iff.2 ⟨.node slot, var?_of_nodeSlot? known, rfl⟩
    refine ⟨[], (List.append_nil _).symm, fun _ _ => rfl, ?_⟩
    simp [there]

theorem Tidy.lists_addNode (tidy : p.Tidy) {node : NodeDescriptor} {slot : Nat}
    (read : p.addNode node = .ok (slot, p')) : ∃ opened, p.Lists node.column? p' opened := by
  obtain ⟨q, old, described, slotFor, found, describes, rfl⟩ := of_addNode read
  obtain ⟨opened, order, kept, last⟩ := tidy.lists_slotFor slotFor
  have same : column? { q with nodes := q.nodes.set slot described } = q.column? :=
    funext fun place => congrArg _ (var?_set found (describe_spec describes).1 place)
  refine ⟨opened, order, ?_, ?_⟩
  · rw [same]
    exact kept
  · rw [same]
    exact last

/-! ## Reading hops -/

theorem column?_addRel {rel : RelDescriptor} {left right mark : Nat}
    (read : q.addRel rel left right mark = .ok p') (place : SlotRef) :
    p'.column? place =
      if place = .rel q.rels.length then rel.column? else q.column? place := by
  obtain ⟨literals, -, -, -, rfl⟩ := of_addRel read
  rw [column?, var?_withRel]
  split
  · rename_i here
    rw [here]
    rfl
  · rfl

/-- The slot of a relationship is listed where the slots ended before its right-hand
node was read. -/
theorem Lists.columns_addRel {new? : Option Column} {opened : List SlotRef}
    (lists : p.Lists new? q opened) (tidy' : q.Tidy) {rel : RelDescriptor} {left right : Nat}
    (read : q.addRel rel left right p.order.length = .ok p') :
    p'.columns = p.columns ++ rel.column?.toList ++
      (new?.filter fun c => c ∉ p.columns).toList := by
  have order : p'.order = p.order ++ .rel q.rels.length :: opened := by
    obtain ⟨literals, -, -, -, rfl⟩ := of_addRel read
    show q.order.insertIdx p.order.length _ = _
    rw [lists.order, insertIdx_length_append]
  have others : ∀ place ∈ q.order, p'.column? place = q.column? place := by
    intro place mem
    rw [column?_addRel read, if_neg]
    intro here
    exact Nat.lt_irrefl _ ((tidy'.listed _).1 (here ▸ mem))
  rw [lists.order, List.forall_mem_append] at others
  have before : p.order.filterMap p'.column? = p.columns :=
    (List.filterMap_congr others.1).trans (List.filterMap_congr lists.kept)
  have after := (List.filterMap_congr others.2).trans lists.opened
  rw [Pattern.columns, order, List.filterMap_append, before, List.filterMap_cons,
    column?_addRel read, if_pos rfl, after, List.append_assoc]
  cases rel.column? <;> rfl

/-- The column of a relationship is new. -/
theorem Lists.not_mem_of_addRel {new? : Option Column} {opened : List SlotRef}
    (lists : p.Lists new? q opened) (tidy' : q.Tidy) {rel : RelDescriptor}
    {left right mark : Nat} (read : q.addRel rel left right mark = .ok p') :
    ∀ c ∈ rel.column?, c ∉ p.columns := by
  obtain ⟨literals, -, checked, -, -⟩ := of_addRel read
  intro c mem known
  obtain ⟨name, named, rfl⟩ := Option.map_eq_some_iff.1 mem
  refine tidy'.not_mem_columns (unused_of_checkRelVar checked name named) .relationship ?_
  rw [lists.columns]
  exact List.mem_append_left _ known

/-! ## Reading paths -/

variable {read : List Column}

/-- The columns are what was read, each at its first occurrence. -/
def ColumnsOf (p : Pattern) (read : List Column) : Prop := p.columns = read.eraseDups

namespace ColumnsOf

theorem empty : empty.ColumnsOf [] := rfl

theorem addNode (columns : p.ColumnsOf read) (tidy : p.Tidy) {node : NodeDescriptor} {slot : Nat}
    (added : p.addNode node = .ok (slot, p')) :
    p'.ColumnsOf (read ++ node.column?.toList) := by
  obtain ⟨opened, lists⟩ := tidy.lists_addNode added
  rw [ColumnsOf, lists.columns, columns, eraseDups_append_toList]

/-- A hop names its relationship first, though the node on the right is read first. -/
theorem addHop (columns : p.ColumnsOf read) (tidy : p.Tidy)
    {hop : RelDescriptor × NodeDescriptor} {left right : Nat}
    (node : p.addNode hop.2 = .ok (right, q))
    (rel : q.addRel hop.1 left right p.order.length = .ok p') :
    p'.ColumnsOf (read ++ hopColumns hop) := by
  obtain ⟨opened, lists⟩ := tidy.lists_addNode node
  have tidy' := tidy.addNode node
  have new := lists.not_mem_of_addRel tidy' rel
  have first : (read ++ hop.1.column?.toList).eraseDups = p.columns ++ hop.1.column?.toList := by
    rw [eraseDups_append_toList, ← columns]
    cases named : hop.1.column? with
    | none => rfl
    | some c => rw [Option.filter_some, if_pos (decide_eq_true (new c named))]
  -- a node and a relationship have different columns, whatever they are named
  have apart : ∀ c ∈ hop.2.column?, c ∉ hop.1.column?.toList := by
    intro c node rel
    obtain ⟨_, -, rfl⟩ := Option.map_eq_some_iff.1 node
    obtain ⟨_, -, same⟩ := Option.map_eq_some_iff.1 (Option.mem_toList.1 rel)
    cases same
  rw [ColumnsOf, hopColumns, ← List.append_assoc, eraseDups_append_toList, first,
    lists.columns_addRel tidy' rel]
  cases named : hop.2.column? with
  | none => rfl
  | some c => simp only [Option.filter_some, List.mem_append, apart c named, or_false]

theorem addHops (columns : p.ColumnsOf read) (tidy : p.Tidy)
    {hops : List (RelDescriptor × NodeDescriptor)} {left : Nat}
    (added : p.addHops left hops = .ok p') :
    p'.ColumnsOf (read ++ hops.flatMap hopColumns) := by
  induction hops generalizing p left read with
  | nil =>
    cases added
    rwa [List.flatMap_nil, List.append_nil]
  | cons hop rest ih =>
    obtain ⟨⟨right, q⟩, node, added⟩ := of_bind_eq_ok added
    obtain ⟨q', rel, added⟩ := of_bind_eq_ok added
    rw [List.flatMap_cons, ← List.append_assoc]
    exact ih (columns.addHop tidy node rel)
      ((tidy.addNode node).addRel (length_order_addNode node) rel) added

theorem addPath (columns : p.ColumnsOf read) (tidy : p.Tidy) {path : Path}
    (added : p.addPath path = .ok p') : p'.ColumnsOf (read ++ path.columns) := by
  unfold Pattern.addPath at added
  unfold Path.columns
  split at added
  · rename_i none
    split at added
    · cases added
      rw [none, readColumns, List.append_nil]
      exact columns
    · cases added
  · rename_i first others begins
    split at added
    · cases added
    · rename_i lengths
      obtain ⟨⟨left, q⟩, node, added⟩ := of_bind_eq_ok added
      rw [begins, readColumns_cons first (Decidable.not_not.1 lengths), ← List.append_assoc]
      exact (columns.addNode tidy node).addHops (tidy.addNode node) added

theorem addPaths (columns : p.ColumnsOf read) (tidy : p.Tidy) {paths : List Path}
    (added : paths.foldlM Pattern.addPath p = .ok p') :
    p'.ColumnsOf (read ++ paths.flatMap Path.columns) := by
  induction paths generalizing p read with
  | nil =>
    cases added
    rwa [List.flatMap_nil, List.append_nil]
  | cons path rest ih =>
    rw [List.foldlM_cons] at added
    obtain ⟨q, first, added⟩ := of_bind_eq_ok added
    rw [List.flatMap_cons, ← List.append_assoc]
    exact ih (columns.addPath tidy first) (tidy.addPath first) added

end ColumnsOf

/-- The columns of a pattern of paths are what the paths name, one path after the
other and each from left to right, at the first occurrence of each name. -/
theorem columns_of_ofPaths {paths : List Path} (compiled : ofPaths paths = .ok p) :
    p.columns = (paths.flatMap Path.columns).eraseDups := by
  unfold ofPaths at compiled
  split at compiled
  · cases compiled
  · exact ColumnsOf.empty.addPaths .empty compiled

end Pattern

end PropertyGraph
