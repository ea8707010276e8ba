import PropertyGraph.Match.Plan
import PropertyGraph.Pattern.Error

/-!
# Planning a match

Planning keeps account of the node slots that are bound and the relationship
slots that are placed. What the row fixes comes first. Then, as long as there
is something left, the first of these that applies is taken: check a
relationship both of whose ends are bound, follow one that has a bound end, or
scan for the unbound node with the fewest candidates. Every step places a
relationship or binds a node, so there are no more steps than slots.
-/

namespace PropertyGraph

/-- The node slots that are bound and the relationship slots that are placed. -/
structure Progress where
  bound : List Nat
  placed : List Nat

namespace Progress

/-- Nothing is bound or placed. -/
def start : Progress := ⟨[], []⟩

/-- Whether a node slot is bound. -/
def binds (s : Progress) (slot : Nat) : Bool := s.bound.contains slot

/-- Whether a relationship slot is placed. -/
def places (s : Progress) (rel : Nat) : Bool := s.placed.contains rel

/-- The account after one more step. -/
def after (p : Pattern) (s : Progress) : MatchStep → Progress
  | .boundNode slot _ => { s with bound := slot :: s.bound }
  | .boundRel rel _ => match p.rels[rel]? with
    | some slot => ⟨slot.source :: slot.target :: s.bound, rel :: s.placed⟩
    | none => { s with placed := rel :: s.placed }
  | .seed slot _ _ => { s with bound := slot :: s.bound }
  | .expand rel _ goal => ⟨goal :: s.bound, rel :: s.placed⟩
  | .check rel => { s with placed := rel :: s.placed }

end Progress

namespace Graph

/-! ## What the row fixes -/

/-- The steps for node slots that the row fixes. Each must be fixed to a live node. -/
def boundNodes (g : Graph) (row : BindingRow) :
    List (NodeSlot × Nat) → Except PatternError (List MatchStep)
  | [] => .ok []
  | (slot, position) :: rest => match slot.bound? row with
    | none => g.boundNodes row rest
    | some (.relationship _) =>
      .error (.bindingKindMismatch slot.displayName .node .relationship)
    | some (.node id) =>
      if g.hasNode id then (g.boundNodes row rest).map (.boundNode position id :: ·)
      else .error (.graph (.nodeNotFound id))

/-- The steps for relationship slots that the row fixes. Each must be fixed to
a live relationship. -/
def boundRels (g : Graph) (row : BindingRow) :
    List (RelSlot × Nat) → Except PatternError (List MatchStep)
  | [] => .ok []
  | (slot, position) :: rest => match slot.bound? row with
    | none => g.boundRels row rest
    | some (.node _) =>
      .error (.bindingKindMismatch slot.displayName .relationship .node)
    | some (.relationship id) =>
      if g.hasRelationship id then (g.boundRels row rest).map (.boundRel position id :: ·)
      else .error (.graph (.relationshipNotFound id))

/-! ## What is left -/

/-- The scan for a node slot, by the first of its labels that the fewest nodes
carry. -/
def slotScan (g : Graph) (slot : NodeSlot) : ScanPlan :=
  g.planScan (leastBy? g.labelCount slot.labels) slot.predicates

/-- The scans that could come next, one for each unbound node slot. -/
def seeds (g : Graph) (p : Pattern) (s : Progress) : List (Nat × ScanPlan × List NodeId) :=
  (p.nodes.zipIdx.filter fun n => !s.binds n.2).map fun n =>
    let scan := g.slotScan n.1
    (n.2, scan, g.runScan scan)

/-- The next step, if there is something left to do. -/
def nextStep? (g : Graph) (p : Pattern) (s : Progress) : Option MatchStep :=
  let waiting := p.rels.zipIdx.filter fun r => !s.places r.2
  match waiting.find? fun r => s.binds r.1.source && s.binds r.1.target with
  | some (_, rel) => some (.check rel)
  | none => match waiting.find? fun r => s.binds r.1.source || s.binds r.1.target with
    | some (slot, rel) =>
      if s.binds slot.source then some (.expand rel slot.source slot.target)
      else some (.expand rel slot.target slot.source)
    | none => (leastBy? (fun seed => seed.2.2.length) (g.seeds p s)).map fun seed =>
      .seed seed.1 seed.2.1 seed.2.2

/-- At most `bound` further steps. -/
def planOn (g : Graph) (p : Pattern) : (bound : Nat) → Progress → List MatchStep
  | 0, _ => []
  | bound + 1, s => match g.nextStep? p s with
    | none => []
    | some step => step :: g.planOn p bound (s.after p step)

/-- The plan for matching a pattern from a row. -/
def planMatch (g : Graph) (p : Pattern) (row : BindingRow) : Except PatternError MatchPlan := do
  let nodes ← g.boundNodes row p.nodes.zipIdx
  let rels ← g.boundRels row p.rels.zipIdx
  let fixed := nodes ++ rels
  return ⟨fixed ++ g.planOn p p.slotCount (fixed.foldl (.after p) .start)⟩

end Graph

end PropertyGraph
