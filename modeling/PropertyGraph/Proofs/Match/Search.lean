import PropertyGraph.Proofs.Match.Outcomes

/-!
# What the search collects

Run on a plan whose steps may be taken one after the other, the search restores
the assignment it started from and collects the full assignments that the steps
lead to, in order, until there are as many as are wanted. Those are exactly the
matches that the assignment lies within and that respect the steps, each once. On
the way no end that a step starts from is ever found vacant.
-/

namespace PropertyGraph

/-! ## Collecting -/

namespace Search

/-- Whether as many assignments are collected as are wanted. -/
def isEnough (limit : Option Nat) (found : Array Assignment) : Bool :=
  match limit with
  | some limit => limit ≤ found.size
  | none => false

/-- Collect assignments until there are as many as are wanted. -/
def collect (limit : Option Nat) (found : Array Assignment) (as : List Assignment) :
    Array Assignment :=
  as.foldl (fun found a => if isEnough limit found then found else found.push a) found

/-- The search with assignments collected. -/
def gather (limit : Option Nat) (as : List Assignment) (s : Search) : Search :=
  { s with found := collect limit s.found as }

variable {limit : Option Nat} {s : Search}

theorem gather_append (as bs : List Assignment) :
    s.gather limit (as ++ bs) = (s.gather limit as).gather limit bs :=
  congrArg (fun found => { s with found }) List.foldl_append

theorem gather_of_isFull (full : s.isFull limit = true) (as : List Assignment) :
    s.gather limit as = s := by
  have enough : isEnough limit s.found = true := full
  have kept : collect limit s.found as = s.found := by
    induction as with
    | nil => rfl
    | cons a as ih =>
      rw [collect, List.foldl_cons, if_pos enough]
      exact ih
  rw [gather, kept]

theorem collect_none (found : Array Assignment) (as : List Assignment) :
    (collect none found as).toList = found.toList ++ as := by
  induction as generalizing found with
  | nil => exact (List.append_nil _).symm
  | cons a as ih =>
    have step : collect none found (a :: as) = collect none (found.push a) as := rfl
    rw [step, ih, Array.toList_push, List.append_assoc, List.singleton_append]

/-- With room for so many, only the first ones are collected. -/
theorem collect_some (k : Nat) (found : Array Assignment) (as : List Assignment) :
    (collect (some k) found as).toList = found.toList ++ as.take (k - found.size) := by
  induction as generalizing found with
  | nil => rw [List.take_nil]; exact (List.append_nil _).symm
  | cons a as ih =>
    have step : collect (some k) found (a :: as) =
      collect (some k) (if isEnough (some k) found then found else found.push a) as := rfl
    rw [step]
    split
    · rename_i enough
      have room : k - found.size = 0 := Nat.sub_eq_zero_of_le (of_decide_eq_true enough)
      rw [ih, room, List.take_zero, List.take_zero]
    · rename_i short
      have room : k - found.size = k - (found.size + 1) + 1 := by
        have : ¬k ≤ found.size := fun le => short (decide_eq_true le)
        omega
      rw [ih, Array.toList_push, Array.size_push, room, List.take_succ_cons, List.append_assoc]
      rfl

/-- Trying candidates in turn, each of which is passed over or collects what its
choice leads to once the search is settled, collects what they lead to together. -/
theorem settle_each {α : Type} {visit : α → Search → Search} {choose : α → Option Assignment}
    {leads : Assignment → List Assignment} (settle : Search → Search) (Invariant : Search → Prop)
    {candidates : List α}
    (kept : ∀ a ∈ candidates, ∀ s, Invariant s → Invariant (visit a s))
    (passed : ∀ a s, choose a = none → Invariant s → settle (visit a s) = settle s)
    (taken : ∀ a ∈ candidates, ∀ b s, choose a = some b → Invariant s →
      settle (visit a s) = (settle s).gather limit (leads b))
    (unsettled : ∀ s, (settle s).isFull limit = s.isFull limit) (s : Search)
    (holds : Invariant s) :
    settle (s.each limit visit candidates) =
      (settle s).gather limit ((candidates.filterMap choose).flatMap leads) := by
  induction candidates generalizing s with
  | nil => rfl
  | cons a rest ih =>
    have later := ih (fun a' mem => kept a' (List.mem_cons_of_mem _ mem))
      fun a' mem => taken a' (List.mem_cons_of_mem _ mem)
    rw [each, List.foldl_cons]
    cases full : s.isFull limit with
    | true =>
      rw [if_pos rfl]
      refine (later s holds).trans ?_
      rw [gather_of_isFull ((unsettled s).trans full), gather_of_isFull ((unsettled s).trans full)]
    | false =>
      rw [if_neg Bool.false_ne_true]
      refine (later (visit a s) (kept a List.mem_cons_self s holds)).trans ?_
      cases choice : choose a with
      | none => rw [List.filterMap_cons_none choice, passed a s choice holds]
      | some b =>
        rw [List.filterMap_cons_some choice, List.flatMap_cons, gather_append,
          taken a List.mem_cons_self b s choice holds]

end Search

namespace Graph

variable {g : Graph} {p : Pattern} {a b m : Assignment} {s : Progress} {step : MatchStep}
  {steps : List MatchStep} {limit : Option Nat}

/-! ## Plans that run -/

/-- Every slot is accounted for. -/
structure Progress.Done (p : Pattern) (s : Progress) : Prop where
  nodes : ∀ slot < p.nodes.length, slot ∈ s.bound
  rels : ∀ position < p.rels.length, position ∈ s.placed

/-- Each step may be taken when it comes, and the last one leaves no slot vacant. -/
inductive Runs (g : Graph) (p : Pattern) : Progress → List MatchStep → Prop
  | done {s : Progress} : Progress.Done p s → Runs g p s []
  | step {s : Progress} {step : MatchStep} {steps : List MatchStep} : g.Ready p s step →
    Runs g p (s.after p step) steps → Runs g p s (step :: steps)

/-- The full assignments that steps lead to, depth first. -/
def extensions (g : Graph) (p : Pattern) : List MatchStep → Assignment → List Assignment
  | [], a => [a]
  | step :: steps, a => (g.outcomes p a step).flatMap (g.extensions p steps)

/-! ## The search as an enumeration -/

/-- Going on collects what the steps lead to. -/
def Collects (g : Graph) (p : Pattern) (limit : Option Nat) (steps : List MatchStep)
    (goOn : Search → Search) (b : Assignment) : Prop :=
  ∀ s : Search, s.current = b → goOn s = s.gather limit (g.extensions p steps b)

theorem setNode_none (filled : a.FilledAt p s) {slot : Nat} (unbound : slot ∉ s.bound)
    {search : Search} (current : search.current = a) : search.setNode slot none = search := by
  have same := Assignment.setNode_node? a slot
  rw [filled.vacantNode unbound, ← current] at same
  rw [Search.setNode, same]

/-- Trying nodes for a slot collects what the ones that fit lead to, and leaves
the slot to be vacated. -/
theorem each_enter (filled : a.FilledAt p s) {slot : Nat} (unbound : slot ∉ s.bound)
    {goOn : Search → Search} (candidates : List NodeId)
    (collects : ∀ node ∈ candidates, ∀ b, g.enter? p a slot node = some b →
      g.Collects p limit steps goOn b)
    {search : Search} (current : search.current = a) :
    (search.each limit (fun node s =>
        if g.fits p slot node then goOn (s.setNode slot (some node)) else s)
      candidates).setNode slot none =
      search.gather limit ((candidates.filterMap (g.enter? p a slot)).flatMap
        (g.extensions p steps)) := by
  -- While candidates are tried the slot holds the last one, so only the rest of
  -- the assignment is as it was.
  have visited : ∀ node ∈ candidates, ∀ t : Search, t.current.setNode slot none = a →
      g.fits p slot node = true → goOn (t.setNode slot (some node)) =
        (t.setNode slot (some node)).gather limit
          (g.extensions p steps (a.setNode slot (some node))) := by
    intro node mem t rest fits
    refine collects node mem _ (if_pos fits) _ ?_
    rw [Search.setNode, ← rest, Assignment.setNode_setNode]
  have vacated := setNode_none filled unbound current
  refine (Search.settle_each (fun t => t.setNode slot none)
    (fun t => t.current.setNode slot none = a)
    (fun node mem t rest => ?_) (fun node t passed _ => ?_) (fun node mem b t taken rest => ?_)
    (fun _ => rfl) search (current ▸ congrArg Search.current vacated)).trans (congrArg _ vacated)
  · split
    · rename_i fits
      rw [visited node mem t rest fits]
      exact (Assignment.setNode_setNode t.current slot _ _).trans rest
    · exact rest
  · rw [enter?, ite_eq_right_iff] at passed
    have misfit : ¬g.fits p slot node = true := fun fits => by cases passed fits
    rw [if_neg misfit]
  · obtain ⟨fits, rfl⟩ := enter?_eq_some_iff.1 taken
    rw [if_pos fits, visited node mem t rest fits]
    exact congrArg (fun current => (⟨current, _⟩ : Search))
      (Assignment.setNode_setNode t.current slot _ _)

theorem tryRel_of_none {goOn : Search → Search} {position : Nat} {id : RelId} {search : Search}
    (passed : g.place? p search.current position id = none) :
    g.tryRel p goOn position id search = search := by
  unfold place? at passed
  unfold tryRel
  cases found : p.rels[position]? with
  | none => rfl
  | some slot =>
    cases live : g.relationship? id with
    | none => rfl
    | some rel =>
      rw [found, live] at passed
      dsimp only at passed ⊢
      split at passed
      · rename_i refused
        rw [if_pos refused]
      · rename_i admitted
        rw [if_neg admitted, Option.map_eq_none_iff.1 passed]

/-- Trying a relationship that can be placed collects what its placing leads to and puts
everything back. -/
theorem tryRel_of_some (consistent : a.Consistent g p s) {position : Nat}
    (waiting : position ∉ s.placed) {goOn : Search → Search} {id : RelId}
    (placed : g.place? p a position id = some b) (collects : g.Collects p limit steps goOn b)
    {search : Search} (current : search.current = a) :
    g.tryRel p goOn position id search = search.gather limit (g.extensions p steps b) := by
  have filled := consistent.filled
  obtain ⟨slot, rel, half, ends, places⟩ :=
    places_of_place? filled.nodesLength consistent.sound placed
  have undone := places.undo filled.nodesLength filled.relsLength (filled.vacantRel waiting)
  have continued := collects ⟨b, search.found⟩ rfl
  unfold place? at placed
  unfold tryRel
  rw [places.found, places.live] at placed ⊢
  dsimp only at placed ⊢
  rw [current]
  split at placed
  · cases placed
  · rename_i admitted
    obtain ⟨seated, ends', result⟩ := Option.map_eq_some_iff.1 placed
    rw [if_neg admitted, ends']
    dsimp only
    have went : Search.setRel { search with current := seated } position (some id) =
        ⟨b, search.found⟩ := congrArg (fun current => (⟨current, search.found⟩ : Search)) result
    rw [went, continued]
    exact congrArg (fun current => (⟨current, _⟩ : Search)) (undone.trans current.symm)

/-- Trying relationships for a slot collects what the ones that can be placed
lead to. -/
theorem each_tryRel (consistent : a.Consistent g p s) {position : Nat}
    (waiting : position ∉ s.placed) {goOn : Search → Search} (candidates : List RelId)
    (collects : ∀ id ∈ candidates, ∀ b, g.place? p a position id = some b →
      g.Collects p limit steps goOn b)
    {search : Search} (current : search.current = a) :
    search.each limit (g.tryRel p goOn position) candidates =
      search.gather limit ((candidates.filterMap (g.place? p a position)).flatMap
        (g.extensions p steps)) := by
  have taken : ∀ id ∈ candidates, ∀ b (t : Search), g.place? p a position id = some b →
      t.current = a → g.tryRel p goOn position id t = t.gather limit (g.extensions p steps b) :=
    fun id mem b t placed same =>
      tryRel_of_some consistent waiting placed (collects id mem b placed) same
  have passed : ∀ id (t : Search), g.place? p a position id = none → t.current = a →
      g.tryRel p goOn position id t = t := fun id t choice same => tryRel_of_none (same ▸ choice)
  refine Search.settle_each id (fun t => t.current = a)
    (fun id mem t same => ?_) passed taken (fun _ => rfl) search current
  cases choice : g.place? p a position id with
  | none => exact (congrArg Search.current (passed id t choice same)).trans same
  | some b => exact (congrArg Search.current (taken id mem b t choice same)).trans same

/-! ## The search of a plan -/

/-- The search, with something to be done instead of turning back where a step
follows or checks a relationship slot and finds an end of it vacant. -/
def searchOr (g : Graph) (p : Pattern) (stuck : Search → Search) (limit : Option Nat) :
    List MatchStep → Search → Search
  | [], s => if s.isFull limit then s else s.keep
  | step :: steps, s =>
    if s.isFull limit then s
    else match step with
      | .boundNode slot node =>
        if g.fits p slot node then
          (g.searchOr p stuck limit steps (s.setNode slot (some node))).setNode slot none
        else s
      | .boundRel rel id => g.tryRel p (g.searchOr p stuck limit steps) rel id s
      | .seed slot _ candidates =>
        (s.each limit (fun node s =>
          if g.fits p slot node then
            g.searchOr p stuck limit steps (s.setNode slot (some node))
          else s)
          candidates).setNode slot none
      | .expand rel origin _ => match p.rels[rel]?, s.current.node? origin with
        | some slot, some node =>
          s.each limit (g.tryRel p (g.searchOr p stuck limit steps) rel)
            (g.followed slot origin node)
        | _, _ => stuck s
      | .check rel => match p.rels[rel]? with
        | some slot => match s.current.node? slot.source, s.current.node? slot.target with
          | some source, some target =>
            s.each limit (g.tryRel p (g.searchOr p stuck limit steps) rel)
              (g.edgesBetween source target (some slot.type))
          | _, _ => stuck s
        | none => stuck s

theorem searchOr_id (steps : List MatchStep) (search : Search) :
    g.searchOr p id limit steps search = g.search p limit steps search := by
  induction steps generalizing search with
  | nil => rfl
  | cons step steps ih =>
    have same : g.searchOr p id limit steps = g.search p limit steps := funext ih
    cases step <;> rw [searchOr, Graph.search, same] <;> rfl

variable {stuck : Search → Search}

theorem searchOr_of_isFull {search : Search} (full : search.isFull limit = true) :
    g.searchOr p stuck limit steps search = search := by
  cases steps with
  | nil => rw [searchOr, if_pos full]
  | cons step steps => cases step <;> rw [searchOr, if_pos full]

/-- The search collects the assignments that the steps lead to, and restores the
one it started from. It never turns back before a vacant end. -/
theorem Runs.collects_or (runs : g.Runs p s steps) (consistent : a.Consistent g p s)
    (stuck : Search → Search) (limit : Option Nat) :
    g.Collects p limit steps (g.searchOr p stuck limit steps) a := by
  induction runs generalizing a with
  | done _ =>
    intro search current
    rw [searchOr]
    subst current
    split
    · rename_i full
      exact (Search.gather_of_isFull full _).symm
    · rename_i unfilled
      have enough : ¬Search.isEnough limit search.found = true := unfilled
      rw [Search.keep, Search.gather, extensions, Search.collect, List.foldl_cons, if_neg enough]
      rfl
  | @step s step steps ready _ ih =>
    intro search current
    have later : ∀ b ∈ g.outcomes p a step,
        g.Collects p limit steps (g.searchOr p stuck limit steps) b := fun b mem =>
      ih (ready.outcome consistent mem).1
    by_cases full : search.isFull limit = true
    · rw [searchOr_of_isFull full, Search.gather_of_isFull full]
    · cases ready with
      | @boundNode slot node unbound =>
        have tried := each_enter consistent.filled unbound [node]
          (fun id mem b entered => later b (List.mem_filterMap.2 ⟨id, mem, entered⟩)) current
        rw [Search.each, List.foldl_cons, List.foldl_nil, if_neg full] at tried
        rw [searchOr, if_neg full, extensions, outcomes, ← tried]
        split
        · rfl
        · exact (setNode_none consistent.filled unbound current).symm
      | boundRel id found waiting =>
        have tried := each_tryRel consistent waiting [id]
          (fun id mem b placed => later b (List.mem_filterMap.2 ⟨id, mem, placed⟩)) current
        rw [Search.each, List.foldl_cons, List.foldl_nil, if_neg full] at tried
        rw [searchOr, if_neg full, extensions, outcomes, ← tried]
      | seed inside unbound nodup complete =>
        rw [searchOr, if_neg full, extensions, outcomes]
        exact each_enter consistent.filled unbound _
          (fun node mem b entered => later b (List.mem_filterMap.2 ⟨node, mem, entered⟩)) current
      | @expand position origin goal slot found waiting bound ends =>
        have tried := each_tryRel consistent waiting (g.reached p a position origin)
          (fun id mem b placed => later b (List.mem_filterMap.2 ⟨id, mem, placed⟩)) current
        obtain ⟨node, seated⟩ := consistent.filled.boundNode bound
        rw [searchOr, if_neg full, extensions, outcomes, ← tried, current, found, seated,
          reached, found, seated]
      | @check position slot found waiting source target =>
        have tried := each_tryRel consistent waiting (g.joining p a position)
          (fun id mem b placed => later b (List.mem_filterMap.2 ⟨id, mem, placed⟩)) current
        obtain ⟨from_, left⟩ := consistent.filled.boundNode source
        obtain ⟨to_, right⟩ := consistent.filled.boundNode target
        rw [searchOr, if_neg full, extensions, outcomes, ← tried, current, found, joining,
          found]
        dsimp only
        rw [left, right]

/-- The search collects the assignments that the steps lead to, and restores the
one it started from. -/
theorem Runs.collects (runs : g.Runs p s steps) (consistent : a.Consistent g p s)
    (limit : Option Nat) : g.Collects p limit steps (g.search p limit steps) a := by
  intro search current
  rw [← searchOr_id]
  exact runs.collects_or consistent id limit search current

end Graph

end PropertyGraph
