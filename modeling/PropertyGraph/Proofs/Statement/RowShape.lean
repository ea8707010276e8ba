import PropertyGraph.Proofs.Pattern.Columns
import PropertyGraph.Proofs.Statement.Instance

/-!
# The shape of answered rows

Matching, merging and creating answer a row extended by the variables of a pattern.
Such a row goes on from the row it was given, unchanged and in its order, with the
columns of the pattern that were not bound in it. The columns do not depend on
whether entities were found or created, so all rows of a statement have the same.
-/

namespace PropertyGraph

/-- What a row names that was extended: the entries of another one, and after them
entities for the columns, in their order and of their kinds. No name occurs twice. -/
structure BindingRow.Extended (row : BindingRow) (columns : List Column) (result : BindingRow) :
    Prop where
  names : result.names.Nodup
  entries : ∃ added, result.entries = row.entries ++ added ∧
    added.map (fun b => (b.1, b.2.kind)) = columns

/-- The columns that a row does not have yet. -/
def BindingRow.lacking (row : BindingRow) (columns : List Column) : List Column :=
  columns.filter fun c => !row.binds c.1

namespace Pattern

variable {p : Pattern} {a : Assignment} {row : BindingRow}

/-! ## Rows of assignments -/

/-- The variables with the entities in their slots, in the order of the slots. -/
def bindings (p : Pattern) (a : Assignment) : List (String × EntityRef) :=
  p.order.filterMap fun place => (p.var? place).bind fun name =>
    (a.entity? place).map fun entity => (name, entity)

theorem bindRow_eq (p : Pattern) (row : BindingRow) (a : Assignment) :
    p.bindRow row a = (p.bindings a).foldl (fun row b => row.bind b.1 b.2) row := by
  rw [bindings, List.foldl_filterMap, bindRow]
  congr 1
  funext row place
  rw [bindSlot]
  cases p.var? place with
  | none => rfl
  | some name => cases a.entity? place <;> rfl

theorem kind_of_entity? {place : SlotRef} {entity : EntityRef}
    (has : a.entity? place = some entity) : entity.kind = place.kind := by
  cases place with
  | node position =>
    obtain ⟨_, -, rfl⟩ := Option.map_eq_some_iff.1 has
    rfl
  | rel position =>
    obtain ⟨_, -, rfl⟩ := Option.map_eq_some_iff.1 has
    rfl

/-- With no slot vacant the entities stand for the columns of the pattern. -/
theorem map_column_bindings (filled : ∀ place ∈ p.order, ∃ entity, a.entity? place = some entity) :
    (p.bindings a).map (fun b => (b.1, b.2.kind)) = p.columns := by
  rw [bindings, columns, List.map_filterMap]
  refine List.filterMap_congr fun place mem => ?_
  obtain ⟨entity, has⟩ := filled place mem
  rw [column?, has, ← kind_of_entity? has]
  cases p.var? place <;> rfl

theorem Tidy.nodup_names (tidy : p.Tidy) : (p.columns.map Prod.fst).Nodup := by
  have names : p.columns.map Prod.fst = p.order.filterMap p.var? := by
    rw [columns, List.map_filterMap]
    refine List.filterMap_congr fun place _ => ?_
    rw [column?]
    cases p.var? place <;> rfl
  rw [names]
  exact tidy.once.filterMap fun place place' name => tidy.unique place place' name

/-- No slot is vacant, and those of variables that the row binds have in them what it
binds them to. -/
structure Completes (p : Pattern) (row : BindingRow) (a : Assignment) : Prop where
  filled : ∀ place, p.Has place → ∃ entity, a.entity? place = some entity
  agrees : ∀ place name entity, p.var? place = some name → row.get? name = some entity →
    a.entity? place = some entity

/-- Binding the variables of a pattern keeps the columns of the row and adds those that it
lacks. -/
theorem Tidy.extended_bindRow (tidy : p.Tidy) (names : row.names.Nodup)
    (completes : p.Completes row a) :
    row.Extended (row.lacking p.columns) (p.bindRow row a) := by
  have columns := map_column_bindings fun place mem =>
    completes.filled place ((tidy.listed place).1 mem)
  have different : ((p.bindings a).map Prod.fst).Nodup := by
    have nodup := tidy.nodup_names
    rw [← columns, List.map_map] at nodup
    exact nodup
  have agree : ∀ b ∈ p.bindings a, ∀ entity, row.get? b.1 = some entity → entity = b.2 := by
    intro b mem entity bound
    obtain ⟨place, -, listed⟩ := List.mem_filterMap.1 mem
    obtain ⟨name, named, given⟩ := Option.bind_eq_some_iff.1 listed
    obtain ⟨own, has, rfl⟩ := Option.map_eq_some_iff.1 given
    exact Option.some.inj ((completes.agrees place name entity named bound).symm.trans has)
  have entries := BindingRow.entries_foldl_bind different agree
  rw [← bindRow_eq] at entries
  refine ⟨?_, _, entries, ?_⟩
  · rw [BindingRow.names, entries, List.map_append, List.nodup_append]
    refine ⟨names, (List.filter_sublist.map _).nodup different, ?_⟩
    intro name mem other new same
    obtain ⟨b, added, rfl⟩ := List.mem_map.1 new
    have unbound := (List.mem_filter.1 added).2
    rw [← same, BindingRow.binds_iff.2 mem] at unbound
    cases unbound
  · rw [BindingRow.lacking, ← columns, List.filter_map]
    rfl

/-- An assignment that fills every slot and respects the row completes it. -/
theorem completes_of_respects {g : Graph} (usable : g.Usable p row)
    (respects : Graph.RespectsRow p row a)
    (filled : ∀ place, p.Has place → ∃ entity, a.entity? place = some entity) :
    p.Completes row a := by
  refine ⟨filled, ?_⟩
  intro place name entity named bound
  cases place with
  | node position =>
    obtain ⟨slot, found, var⟩ := Option.bind_eq_some_iff.1 named
    have fixed : slot.bound? row = some entity := by
      rw [NodeSlot.bound?, var, Option.bind_some, bound]
    obtain ⟨id, rfl, -⟩ := usable.nodes slot (List.mem_of_getElem? found) entity fixed
    rw [Assignment.entity?, respects.node position slot id found fixed]
    rfl
  | rel position =>
    obtain ⟨slot, found, var⟩ := Option.bind_eq_some_iff.1 named
    have fixed : slot.bound? row = some entity := by
      rw [RelSlot.bound?, var, Option.bind_some, bound]
    obtain ⟨id, rfl, -⟩ := usable.rels slot (List.mem_of_getElem? found) entity fixed
    rw [Assignment.entity?, respects.rel position slot id found fixed]
    rfl

end Pattern

namespace BindingRow

variable {row row' result result' : BindingRow} {columns : List Column}

theorem Extended.names_eq (extended : row.Extended columns result) :
    result.names = row.names ++ columns.map Prod.fst := by
  obtain ⟨added, entries, rfl⟩ := extended.entries
  rw [BindingRow.names, entries, List.map_append, List.map_map]
  rfl

/-- Which columns a row lacks depends on its names only. -/
theorem lacking_of_names (same : row'.names = row.names) (columns : List Column) :
    row'.lacking columns = row.lacking columns := by
  refine List.filter_congr fun c _ => ?_
  have alike : row'.binds c.1 = row.binds c.1 := by
    rw [Bool.eq_iff_iff, binds_iff, binds_iff, same]
  rw [alike]

end BindingRow

namespace Execution

variable {x x' : Execution} {p : Pattern} {row result : BindingRow}

/-- A row that matching, merging or creating answers. -/
inductive Yields (x : Execution) (p : Pattern) (row result : BindingRow) : Prop
  | found {rows : List BindingRow} :
    x.graph.findAll p row = .ok rows → result ∈ rows → Yields x p row result
  | merged {rows : List BindingRow} {x' : Execution} :
    merge p row x = (.ok rows, x') → result ∈ rows → Yields x p row result
  | created {x' : Execution} : create p row x = (.ok result, x') → Yields x p row result

/-- What a merge answers was found or created. -/
theorem yields_of_merge {rows : List BindingRow} (merged : merge p row x = (.ok rows, x'))
    (mem : result ∈ rows) : (∃ found, x.graph.findAll p row = .ok found ∧ result ∈ found) ∨
      create p row x = (.ok result, x') := by
  cases found : x.graph.findAll p row with
  | error e =>
    rw [merge_of_error found] at merged
    cases merged
  | ok found' =>
    cases found' with
    | nil =>
      obtain ⟨_, rfl, created⟩ := create_of_merge found merged
      cases List.mem_singleton.1 mem
      exact .inr created
    | cons first rest =>
      rw [merge_of_cons found] at merged
      cases merged
      exact .inl ⟨_, rfl, mem⟩

/-- A row found is the given one extended by a match. -/
theorem completes_of_findAll (coherent : x.graph.Coherent) (wellFormed : p.WellFormed)
    {rows : List BindingRow} (answered : x.graph.findAll p row = .ok rows) (mem : result ∈ rows) :
    ∃ a, result = p.bindRow row a ∧ p.Completes row a := by
  obtain ⟨found, -, holds, rfl⟩ := coherent.of_findAll wellFormed answered
  obtain ⟨m, inside, rfl⟩ := List.mem_map.1 mem
  have holds := (holds m).1 inside
  exact ⟨m.assignment, rfl, Pattern.completes_of_respects (Graph.usable_of_holds holds)
    (Graph.respects_of_holds holds)
    fun _ => exists_entity?_assignment holds.nodesLength holds.relsLength⟩

/-- A row created is the given one extended by an instance. -/
theorem completes_of_create (stored : x.graph.Stored) (wellFormed : p.WellFormed) (tidy : p.Tidy)
    (created : create p row x = (.ok result, x')) :
    ∃ a, result = p.bindRow row a ∧ p.Completes row a := by
  obtain ⟨bound, checked⟩ := checkCreation_of_create created
  obtain ⟨-, usable, unbound⟩ := of_checkCreation checked
  obtain ⟨m, rfl, instantiates⟩ := instantiates_of_create stored wellFormed tidy created
  obtain ⟨lengths, nodes⟩ := List.forall₂_iff_get.1 instantiates.nodes
  refine ⟨m.assignment, rfl, Pattern.completes_of_respects
    ⟨usable, fun slot mem entity bound => ?_⟩
    ⟨fun position slot id found bound => ?_, fun position slot id found bound => ?_⟩
    fun _ => exists_entity?_assignment lengths.symm instantiates.rels.length_eq.symm⟩
  · rw [unbound slot mem] at bound
    cases bound
  · obtain ⟨inside, rfl⟩ := List.getElem?_eq_some_iff.1 found
    have inside' : position < m.nodes.length := lengths ▸ inside
    obtain ⟨same, -⟩ := (nodes position inside inside').bound _ bound
    rw [Graph.node?_assignment, List.getElem?_eq_getElem inside']
    exact congrArg some (EntityRef.node.inj same).symm
  · rw [unbound slot (List.mem_of_getElem? found)] at bound
    cases bound

theorem Yields.completes (reachable : x.graph.Reachable) {paths : List Path}
    (compiled : Pattern.ofPaths paths = .ok p) (yields : Yields x p row result) :
    ∃ a, result = p.bindRow row a ∧ p.Completes row a := by
  have coherent := reachable.coherent
  have wellFormed := Pattern.wellFormed_of_ofPaths compiled
  have tidy := Pattern.tidy_of_ofPaths compiled
  cases yields with
  | found answered mem => exact completes_of_findAll coherent wellFormed answered mem
  | merged merged mem =>
    rcases yields_of_merge merged mem with ⟨rows, answered, mem⟩ | created
    · exact completes_of_findAll coherent wellFormed answered mem
    · exact completes_of_create coherent.stored wellFormed tidy created
  | created created => exact completes_of_create coherent.stored wellFormed tidy created

/-- An answered row extends the given one by what the paths name. -/
theorem Yields.extended (reachable : x.graph.Reachable) {paths : List Path}
    (compiled : Pattern.ofPaths paths = .ok p) (names : row.names.Nodup)
    (yields : Yields x p row result) :
    row.Extended (row.lacking (paths.flatMap Path.columns).eraseDups) result := by
  obtain ⟨a, rfl, completes⟩ := yields.completes reachable compiled
  rw [← Pattern.columns_of_ofPaths compiled]
  exact (Pattern.tidy_of_ofPaths compiled).extended_bindRow names completes

/-- Let paths form a pattern, a graph be reachable and a row be built by binding names.
Then each row that matching, merging or creating answers has no name twice, starts with
the given row as it is and goes on with what the paths name and the row does not bind,
each bound to an entity of its kind, in the order in which the names first occur in the
paths. Rows answered for given rows of the same names, found or created, now or in
another reachable graph, have the same names in the same order. -/
theorem answered_rows_extend {paths : List Path} (compiled : Pattern.ofPaths paths = .ok p)
    (reachable : x.graph.Reachable) (bindings : List (String × EntityRef)) :
    (∀ result, Yields x p (.ofList bindings) result →
      (BindingRow.ofList bindings).Extended
        ((BindingRow.ofList bindings).lacking (paths.flatMap Path.columns).eraseDups) result) ∧
    ∀ (x' : Execution) (bindings' : List (String × EntityRef)), x'.graph.Reachable →
      (BindingRow.ofList bindings').names = (BindingRow.ofList bindings).names →
      ∀ result result', Yields x p (.ofList bindings) result →
        Yields x' p (.ofList bindings') result' → result'.names = result.names := by
  have nodup := BindingRow.names_ofList_nodup
  refine ⟨fun result yields => yields.extended reachable compiled (nodup _), ?_⟩
  intro x' bindings' reachable' same result result' yields yields'
  rw [(yields.extended reachable compiled (nodup _)).names_eq,
    (yields'.extended reachable' compiled (nodup _)).names_eq, same,
    BindingRow.lacking_of_names same]

/-- A row that was found and one that was created have the same columns. -/
theorem answered_rows_extend_found_and_created :
    let paths : List Path :=
      [⟨[⟨some "p", some "Person", []⟩, ⟨some "d", none, []⟩], [⟨some "r", "owns", .outgoing, []⟩]⟩,
        ⟨[⟨some "q", none, []⟩, ⟨some "p", none, []⟩], [⟨some "s", "likes", .incoming, []⟩]⟩]
    let p : Pattern := ⟨[⟨some "p", ["Person"], []⟩, ⟨some "d", [], []⟩, ⟨some "q", [], []⟩],
      [⟨some "r", "owns", 0, 1, []⟩, ⟨some "s", "likes", 0, 2, []⟩],
      [.node 0, .rel 0, .node 1, .node 2, .rel 1]⟩
    let x := start ((Graph.empty .standard).afterAll
      [.createNode ["Person"] [], .createNode [] [], .createNode [] [],
        .createRelationship "owns" ⟨1⟩ ⟨2⟩ [], .createRelationship "likes" ⟨1⟩ ⟨3⟩ []])
    let row : BindingRow := .ofList [("d", .node ⟨2⟩)]
    let found : BindingRow := ⟨[("d", .node ⟨2⟩), ("p", .node ⟨1⟩), ("r", .relationship ⟨1⟩),
      ("q", .node ⟨3⟩), ("s", .relationship ⟨2⟩)]⟩
    let created : BindingRow := ⟨[("d", .node ⟨2⟩), ("p", .node ⟨4⟩), ("r", .relationship ⟨3⟩),
      ("q", .node ⟨5⟩), ("s", .relationship ⟨4⟩)]⟩
    Pattern.ofPaths paths = .ok p ∧ x.graph.Reachable ∧
      x.graph.findAll p row = .ok [found] ∧ (create p row x).1 = .ok created ∧
      row.Extended [("p", .node), ("r", .relationship), ("q", .node), ("s", .relationship)]
        created ∧ created.names = found.names := by
  intro paths p x row found created
  have compiled : Pattern.ofPaths paths = .ok p := rfl
  have reachable : x.graph.Reachable := (Graph.Reachable.empty .standard).afterAll _
  have matched : x.graph.findAll p row = .ok [found] := by decide +kernel
  have made : (create p row x).1 = .ok created := by decide +kernel
  have columns : row.lacking (paths.flatMap Path.columns).eraseDups =
      [("p", .node), ("r", .relationship), ("q", .node), ("s", .relationship)] := by decide +kernel
  obtain ⟨extended, alike⟩ := answered_rows_extend compiled reachable [("d", .node ⟨2⟩)]
  have yields : Yields x p row created := by
    rcases ran : create p row x with ⟨answer, x'⟩
    rw [ran] at made
    obtain rfl : answer = .ok created := made
    exact .created ran
  have goesOn := extended created yields
  rw [columns] at goesOn
  have yields' : Yields x p row found := .found matched List.mem_cons_self
  have same := alike x [("d", .node ⟨2⟩)] reachable rfl found created yields' yields
  exact ⟨compiled, reachable, matched, made, goesOn, same⟩

end Execution

end PropertyGraph
