import PropertyGraph.Proofs.Session.Requests
import PropertyGraph.Proofs.Statement.Parallel

/-!
# Indexes accelerate and do nothing else

Two sessions that start alike and are asked the same, apart from declaring and
dropping indexes, store the same at every point. They give the same answers, but
for the order of the rows that come of one row given: that is the order of the
search, which starts where the indexes that are declared let it start. The
exception is a statement that applies updates to what it has matched, in that order.
-/

namespace PropertyGraph

/-! ## Requests and their answers -/

/-- Whether the statement declares or drops an index. -/
def Statement.isIndexing : Statement → Bool
  | .createIndex _ => true
  | .dropIndex _ => true
  | _ => false

/-- Whether the statement applies no update to rows that it may have matched. -/
def Statement.isOrderFree : Statement → Bool
  | .mergeWith _ _ updates => updates.isEmpty
  | .matchUpdate _ _ => false
  | _ => true

namespace Session

/-- Whether the request declares or drops an index. -/
def Request.isIndexing : Request → Bool
  | .operate operation => operation.isIndexing
  | .run statement => statement.isIndexing
  | .findNodes _ _ => false

/-- Whether the request applies no update to rows that it may have matched. -/
def Request.isOrderFree : Request → Bool
  | .run statement => statement.isOrderFree
  | _ => true

/-- The rows of merging a path, one block for each row that was merged from. -/
def mergedBlocks (s : Session) (path : Path) (inputs : List BindingRow) (updates : List Update) :
    Except SessionError (List (List BindingRow)) := do
  let p ← (Pattern.ofPaths [path]).mapError .pattern
  (MergeStream.mergeEach p updates inputs (.start s.graph)).1.mapError .execution

/-- The rows that a statement answers, in one block for each row it was given, or
all in one if it is not given rows. -/
def rowBlocks (s : Session) : Statement → Except SessionError (List (List BindingRow))
  | .merge path => s.mergedBlocks path [.empty] []
  | .mergeWith path inputs updates => s.mergedBlocks path inputs updates
  | .matchPath path inputs => do
    let p ← (Pattern.ofPaths [path]).mapError .pattern
    (inputs.mapM (s.graph.findAll p)).mapError .pattern
  | statement => (run statement s).1.map fun result => [result.rows]

/-- Both sessions run the statement with the same counters and the same rows, but
for the order within the block of rows that comes of one row given; or both fail
for one reason. -/
def RunsAlike (s s' : Session) (statement : Statement) : Prop :=
  AlikeOutcome (fun result result' => result.stats = result'.stats ∧
    ∃ blocks blocks', s.rowBlocks statement = .ok blocks ∧ result.rows = blocks.flatten ∧
      s'.rowBlocks statement = .ok blocks' ∧ result'.rows = blocks'.flatten ∧
      List.Forall₂ List.Perm blocks blocks') (run statement s).1 (run statement s').1

/-- Both sessions answer a request alike, but for the order of what they find. -/
def AnswersAlike (s s' : Session) : Request → Prop
  | .operate operation => s.graph.reply operation = s'.graph.reply operation
  | .run statement => s.RunsAlike s' statement
  | .findNodes label predicates =>
    (s.graph.scan label predicates).Perm (s'.graph.scan label predicates)

/-- The requests that are not on indexes. -/
def Request.common (requests : List Request) : List Request :=
  requests.filter fun request => !request.isIndexing

/-- The requests that are not on indexes, each with the session that it came to. -/
def history (s : Session) : List Request → List (Session × Request)
  | [] => []
  | request :: rest =>
    if request.isIndexing then history (s.after request) rest
    else (s, request) :: history (s.after request) rest

/-! ## Statements in parallel -/

variable {s s' : Session}

theorem rowBlocks_mergeWith {path : Path} {p : Pattern} {inputs : List BindingRow}
    {updates : List Update} (compiled : Pattern.ofPaths [path] = .ok p) :
    s.rowBlocks (.mergeWith path inputs updates) =
      (MergeStream.mergeEach p updates inputs (.start s.graph)).1.mapError .execution := by
  rw [rowBlocks, mergedBlocks, compiled]
  rfl

/-- Sessions on twins merge a path alike and stay on twins. -/
theorem mergeWith_alike (twins : s.graph.Twins s'.graph) (path : Path)
    (inputs : List BindingRow) :
    s.RunsAlike s' (.mergeWith path inputs []) ∧
      (mergeWith path inputs [] s).2.graph.Twins (mergeWith path inputs [] s').2.graph := by
  rw [RunsAlike, run]
  cases compiled : Pattern.ofPaths [path] with
  | error e =>
    rw [mergeWith_of_error compiled, mergeWith_of_error compiled]
    exact ⟨.error _, twins⟩
  | ok p =>
    obtain ⟨alike, beside⟩ := Execution.parallel_mergeEach (Pattern.wellFormed_of_ofPaths compiled)
      inputs _ _ (.start twins)
    rw [rowBlocks_mergeWith compiled, rowBlocks_mergeWith compiled]
    rcases ran : MergeStream.mergeEach p [] inputs (.start s.graph) with ⟨outcome, x⟩
    rcases ran' : MergeStream.mergeEach p [] inputs (.start s'.graph) with ⟨outcome', x'⟩
    rw [ran, ran'] at alike beside
    cases alike with
    | error e =>
      rw [mergeWith_of_failure compiled ran, mergeWith_of_failure compiled ran']
      exact ⟨.error _, beside.graph⟩
    | @ok blocks blocks' same =>
      rw [mergeWith_of_blocks compiled ran, mergeWith_of_blocks compiled ran']
      exact ⟨.ok ⟨beside.stats, blocks, blocks', rfl, rfl, rfl, rfl, same⟩, beside.graph⟩

theorem rowBlocks_matchPath {path : Path} {p : Pattern} {inputs : List BindingRow}
    (compiled : Pattern.ofPaths [path] = .ok p) :
    s.rowBlocks (.matchPath path inputs) =
      (inputs.mapM (s.graph.findAll p)).mapError .pattern := by
  rw [rowBlocks, compiled]
  rfl

/-- Sessions on twins match a path alike. -/
theorem matchPath_alike (twins : s.graph.Twins s'.graph) (path : Path)
    (inputs : List BindingRow) :
    s.RunsAlike s' (.matchPath path inputs) ∧
      (matchPath path inputs s).2.graph.Twins (matchPath path inputs s').2.graph := by
  rw [RunsAlike, run]
  cases compiled : Pattern.ofPaths [path] with
  | error e =>
    rw [matchPath_of_error compiled, matchPath_of_error compiled]
    exact ⟨.error _, twins⟩
  | ok p =>
    rw [matchPath_of_ok compiled, matchPath_of_ok compiled, rowBlocks_matchPath compiled,
      rowBlocks_matchPath compiled]
    refine ⟨?_, twins⟩
    have alike : AlikeOutcome (List.Forall₂ List.Perm) (inputs.mapM (s.graph.findAll p))
        (inputs.mapM (s'.graph.findAll p)) :=
      .mapM (twins.findAll (Pattern.wellFormed_of_ofPaths compiled)) inputs
    rcases alike.cases with ⟨e, failed, failed'⟩ | ⟨blocks, blocks', found, found', same⟩
    · rw [failed, failed']
      exact .error _
    · rw [found, found']
      exact .ok ⟨rfl, blocks, blocks', rfl, rfl, rfl, rfl, same⟩

theorem execute_alike (twins : s.graph.Twins s'.graph)
    {action : Execution.Action (List BindingRow)}
    (parallel : RefusableAction.Parallel Execution.Beside Eq action action) :
    (execute action s).1 = (execute action s').1 ∧
      (execute action s).2.graph.Twins (execute action s').2.graph := by
  obtain ⟨alike, beside⟩ := parallel _ _ (.start twins)
  rw [execute, execute]
  rcases ran : action (.start s.graph) with ⟨outcome, x⟩
  rcases ran' : action (.start s'.graph) with ⟨outcome', x'⟩
  rw [ran, ran'] at alike beside
  cases alike with
  | error e => exact ⟨rfl, beside.graph⟩
  | ok same =>
    cases same
    exact ⟨congrArg (fun stats => Except.ok (StatementResult.mk _ stats)) beside.stats,
      beside.graph⟩

/-- Sessions on twins create paths alike and stay on twins. -/
theorem create_alike (twins : s.graph.Twins s'.graph) (paths : List Path)
    (updates : List Update) :
    (create paths updates s).1 = (create paths updates s').1 ∧
      (create paths updates s).2.graph.Twins (create paths updates s').2.graph := by
  cases compiled : Pattern.ofPaths paths with
  | error e =>
    rw [create_of_error compiled, create_of_error compiled]
    exact ⟨rfl, twins⟩
  | ok p =>
    rw [create_of_ok compiled, create_of_ok compiled]
    refine execute_alike twins (.bind (Execution.parallel_create p .empty) ?_)
    rintro row _ rfl
    exact .bind (Execution.parallel_apply row updates) fun _ _ _ => .pure rfl

/-- A statement whose rows are all in one block runs alike if it ends the same. -/
theorem runsAlike_of_eq {statement : Statement}
    (single : ∀ s, rowBlocks s statement = (run statement s).1.map fun result => [result.rows])
    (same : (run statement s).1 = (run statement s').1) : s.RunsAlike s' statement := by
  rw [RunsAlike, single, single, same]
  cases (run statement s').1 with
  | error e => exact .error e
  | ok result =>
    refine .ok ⟨rfl, [result.rows], [result.rows], rfl, ?_, rfl, ?_, ?_⟩
    · exact (List.flatten_singleton).symm
    · exact (List.flatten_singleton).symm
    · exact .cons (.refl _) .nil

/-! ## Requests in parallel -/

theorem isOrderFree_of_isIndexing {request : Request} (indexing : request.isIndexing = true) :
    request.isOrderFree = true := by
  rcases request with operation | statement | ⟨label, predicates⟩
  · rfl
  · cases statement with
    | createIndex _ => rfl
    | dropIndex _ => rfl
    | _ => cases indexing
  · rfl

/-- Sessions on twins answer what is asked of both alike and stay on twins. -/
theorem answersAlike (twins : s.graph.Twins s'.graph) {request : Request}
    (ordinary : request.isIndexing = false) (free : request.isOrderFree = true) :
    s.AnswersAlike s' request ∧ (s.after request).graph.Twins (s'.after request).graph := by
  cases request with
  | operate operation => exact ⟨twins.reply ordinary, twins.after operation ordinary⟩
  | findNodes label predicates => exact ⟨twins.scan label predicates, twins⟩
  | run statement =>
    cases statement with
    | merge path => exact mergeWith_alike twins path [.empty]
    | mergeWith path inputs updates =>
      cases List.isEmpty_iff.1 free
      exact mergeWith_alike twins path inputs
    | create paths updates =>
      obtain ⟨same, twins'⟩ := create_alike twins paths updates
      exact ⟨runsAlike_of_eq (fun _ => rfl) same, twins'⟩
    | matchPath path inputs => exact matchPath_alike twins path inputs
    | matchUpdate _ _ => cases free
    | createIndex _ => cases ordinary
    | dropIndex _ => cases ordinary

/-- A request on indexes leaves the graph of a session its own twin. -/
theorem after_of_isIndexing (reachable : s.graph.Reachable) {request : Request}
    (indexing : request.isIndexing = true) : (s.after request).graph.Twins s.graph := by
  cases request with
  | operate operation => exact .after_of_isIndexing reachable operation indexing
  | findNodes _ _ => cases indexing
  | run statement =>
    cases statement with
    | createIndex name =>
      rw [after, run, createIndex, graph_declare]
      exact .after_of_isIndexing reachable (.createIndex name) rfl
    | dropIndex name =>
      rw [after, run, dropIndex, graph_declare]
      exact .after_of_isIndexing reachable (.dropIndex name) rfl
    | _ => cases indexing

/-! ## Histories in parallel -/

/-- A request that both sessions are asked, and whose graphs are twins. -/
structure Together (asked asked' : Session × Request) : Prop where
  twins : asked.1.graph.Twins asked'.1.graph
  request : asked.2 = asked'.2
  ordinary : asked.2.isIndexing = false
  free : asked.2.isOrderFree = true

theorem Together.symm_trans {asked asked' between : Session × Request}
    (together : Together asked between) (together' : Together asked' between) :
    Together asked asked' where
  twins := together.twins.trans together'.twins.symm
  request := together.request.trans together'.request.symm
  ordinary := together.ordinary
  free := together.free

section

variable {request : Request}

theorem common_of_isIndexing (indexing : request.isIndexing = true) (rest : List Request) :
    Request.common (request :: rest) = Request.common rest :=
  List.filter_cons_of_neg (by simp [indexing])

theorem common_of_ordinary (ordinary : request.isIndexing = false) (rest : List Request) :
    Request.common (request :: rest) = request :: Request.common rest :=
  List.filter_cons_of_pos (by simp [ordinary])

theorem history_of_isIndexing (indexing : request.isIndexing = true) (rest : List Request) :
    s.history (request :: rest) = (s.after request).history rest := by
  rw [history, if_pos indexing]

theorem history_of_ordinary (ordinary : request.isIndexing = false) (rest : List Request) :
    s.history (request :: rest) = (s, request) :: (s.after request).history rest := by
  rw [history, ordinary]
  rfl

end

/-- A session goes together with one that is not asked to declare or drop indexes. -/
theorem together_common (twins : s.graph.Twins s'.graph) {requests : List Request}
    (free : ∀ request ∈ requests, request.isOrderFree = true) :
    (s.afterAll requests).graph.Twins (s'.afterAll (Request.common requests)).graph ∧
      List.Forall₂ Together (s.history requests) (s'.history (Request.common requests)) := by
  induction requests generalizing s s' with
  | nil => exact ⟨twins, .nil⟩
  | cons request rest ih =>
    obtain ⟨here, later⟩ := List.forall_mem_cons.1 free
    cases indexing : request.isIndexing with
    | true =>
      rw [common_of_isIndexing indexing, history_of_isIndexing indexing]
      exact ih ((after_of_isIndexing twins.left indexing).trans twins) later
    | false =>
      obtain ⟨_, twins'⟩ := answersAlike twins indexing here
      obtain ⟨last, together⟩ := ih twins' later
      rw [common_of_ordinary indexing, history_of_ordinary indexing, history_of_ordinary indexing]
      exact ⟨last, .cons ⟨twins, rfl, indexing, here⟩ together⟩

theorem forall₂_symm_trans {as bs cs : List (Session × Request)}
    (left : List.Forall₂ Together as cs) (right : List.Forall₂ Together bs cs) :
    List.Forall₂ Together as bs := by
  induction left generalizing bs with
  | nil =>
    cases right
    exact .nil
  | cons here _ ih =>
    cases right with
    | cons here' later => exact .cons (here.symm_trans here') (ih later)

/-- Two sessions start alike and are asked the same, apart from requests on
indexes, and no statement applies updates to rows that it may have matched. Then at
every common request both answer alike, but for the order of the rows that come
of one row given and of the nodes that are found, and after it both store the
same, as they do in the end. -/
theorem indexes_only_accelerate (config : GraphConfig) {requests requests' : List Request}
    (alike : Request.common requests = Request.common requests')
    (free : ∀ request ∈ requests, request.isOrderFree = true) :
    let s := start config
    (s.afterAll requests).graph.SameStore (s.afterAll requests').graph ∧
      List.Forall₂ (fun asked asked' => asked.2 = asked'.2 ∧
          asked.1.AnswersAlike asked'.1 asked.2 ∧
          (asked.1.after asked.2).graph.SameStore (asked'.1.after asked'.2).graph)
        (s.history requests) (s.history requests') := by
  intro s
  have twins : s.graph.Twins s.graph := .refl (.empty config)
  have free' : ∀ request ∈ requests', request.isOrderFree = true := by
    intro request mem
    cases indexing : request.isIndexing with
    | true => exact isOrderFree_of_isIndexing indexing
    | false =>
      have common : request ∈ Request.common requests := by
        rw [alike, Request.common, List.mem_filter, indexing]
        exact ⟨mem, rfl⟩
      exact free request (List.mem_filter.1 common).1
  obtain ⟨final, together⟩ := together_common twins free
  obtain ⟨final', together'⟩ := together_common twins free'
  rw [← alike] at final' together'
  refine ⟨(final.trans final'.symm).sameStore, ?_⟩
  refine (forall₂_symm_trans together together').imp fun asked asked' both => ?_
  obtain ⟨answered, twins'⟩ := answersAlike both.twins both.ordinary both.free
  rw [← both.request]
  exact ⟨rfl, answered, twins'.sameStore⟩

/-- With an index the same nodes are found in another order, and what is merged later is
stored alike. -/
theorem indexes_only_accelerate_with_index_on_age :
    let s := start .standard
    let people : List Request := [.operate (.createNode ["Person"] [("age", .int 30)]),
      .operate (.createNode ["Person"] [("age", .int 20)])]
    let declared : List Request := .run (.createIndex ⟨"Person", "age"⟩) :: people
    let adults : List PropertyPredicate := [⟨"age", .ge, .int 18⟩]
    let path : Path := ⟨[⟨some "p", some "Person", [("age", .int 7)]⟩], []⟩
    let asked : List Request := [.findNodes (some "Person") adults, .run (.merge path)]
    let requests := declared ++ asked
    let requests' := people ++ asked
    Request.common requests = Request.common requests' ∧
      (∀ request ∈ requests, request.isOrderFree = true) ∧
      (s.afterAll declared).graph.scan (some "Person") adults = [⟨2⟩, ⟨1⟩] ∧
      (s.afterAll people).graph.scan (some "Person") adults = [⟨1⟩, ⟨2⟩] ∧
      (s.afterAll requests).graph.SameStore (s.afterAll requests').graph ∧
      List.Forall₂ (fun asked asked' => asked.2 = asked'.2 ∧
          asked.1.AnswersAlike asked'.1 asked.2 ∧
          (asked.1.after asked.2).graph.SameStore (asked'.1.after asked'.2).graph)
        (s.history requests) (s.history requests') := by
  intro s people declared adults path asked requests requests'
  have alike : Request.common requests = Request.common requests' := rfl
  have free : ∀ request ∈ requests, request.isOrderFree = true := by decide
  exact ⟨alike, free, by decide, by decide, indexes_only_accelerate .standard alike free⟩

end Session

end PropertyGraph
