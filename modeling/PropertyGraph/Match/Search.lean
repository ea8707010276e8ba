import PropertyGraph.Match.Planning

/-!
# Searching for matches

The search runs through the steps of a plan depth first. It fills slots of one
assignment as it goes down and vacates them as it comes back up, and it keeps a
copy of the assignment whenever it gets past the last step. A limit on the
number of matches cuts it short.
-/

namespace PropertyGraph

/-- A search under way: the assignment as far as it is filled, and the matches
found. -/
structure Search where
  current : Assignment
  found : Array Assignment

namespace Search

/-- Whether as many matches are found as are wanted. -/
def isFull (limit : Option Nat) (s : Search) : Bool :=
  match limit with
  | some limit => limit ≤ s.found.size
  | none => false

/-- Keep the current assignment as a match. -/
def keep (s : Search) : Search := { s with found := s.found.push s.current }

/-- Fill or vacate a node slot. -/
def setNode (s : Search) (slot : Nat) (node : Option NodeId) : Search :=
  { s with current := s.current.setNode slot node }

/-- Fill or vacate a relationship slot. -/
def setRel (s : Search) (slot : Nat) (rel : Option RelId) : Search :=
  { s with current := s.current.setRel slot rel }

/-- Go on with each candidate in turn until there are matches enough. -/
def each {α : Type u} (limit : Option Nat) (visit : α → Search → Search) (candidates : List α)
    (s : Search) : Search :=
  candidates.foldl (fun s a => if s.isFull limit then s else visit a s) s

end Search

namespace Graph

/-- Whether a node is live and accepted by a node slot. -/
def fits (g : Graph) (p : Pattern) (slot : Nat) (node : NodeId) : Bool :=
  match p.nodes[slot]?, g.node? node with
  | some slot, some node => slot.accepts node
  | _, _ => false

/-- Put a node into a slot, if it fits or is there already. -/
def seat? (g : Graph) (p : Pattern) (a : Assignment) (slot : Nat) (node : NodeId) :
    Option Assignment :=
  match a.node? slot with
  | some seated => if seated = node then some a else none
  | none => if g.fits p slot node then some (a.setNode slot (some node)) else none

/-- Put both ends of a relationship into the slots at the ends of a
relationship slot, the source first. -/
def seatEnds? (g : Graph) (p : Pattern) (slot : RelSlot) (rel : Relationship)
    (a : Assignment) : Option Assignment :=
  (g.seat? p a slot.source rel.source).bind fun a => g.seat? p a slot.target rel.target

/-- Put a relationship into a slot and its ends into theirs, go on, and put
everything back as it was. A relationship that is in another slot is passed
over. -/
def tryRel (g : Graph) (p : Pattern) (goOn : Search → Search) (position : Nat) (id : RelId)
    (s : Search) : Search :=
  match p.rels[position]?, g.relationship? id with
  | some slot, some rel =>
    if !slot.accepts rel || s.current.rels.contains (some id) then s
    else match g.seatEnds? p slot rel s.current with
      | none => s
      | some seated =>
        let source := s.current.node? slot.source
        let target := s.current.node? slot.target
        let after := goOn ({ s with current := seated }.setRel position (some id))
        ((after.setRel position none).setNode slot.source source).setNode slot.target target
  | _, _ => s

/-- The relationships of a slot's type that leave or enter the node in the slot
`origin`. -/
def followed (g : Graph) (slot : RelSlot) (origin : Nat) (node : NodeId) : List RelId :=
  if origin = slot.source then g.edgesFrom node (some slot.type)
  else g.edgesTo node (some slot.type)

/-- Run through steps depth first. -/
def search (g : Graph) (p : Pattern) (limit : Option Nat) : List MatchStep → Search → Search
  | [], s => if s.isFull limit then s else s.keep
  | step :: steps, s =>
    if s.isFull limit then s
    else match step with
      | .boundNode slot node =>
        if g.fits p slot node then
          (g.search p limit steps (s.setNode slot (some node))).setNode slot none
        else s
      | .boundRel rel id => g.tryRel p (g.search p limit steps) rel id s
      | .seed slot _ candidates =>
        (s.each limit (fun node s =>
          if g.fits p slot node then g.search p limit steps (s.setNode slot (some node)) else s)
          candidates).setNode slot none
      | .expand rel origin _ => match p.rels[rel]?, s.current.node? origin with
        | some slot, some node =>
          s.each limit (g.tryRel p (g.search p limit steps) rel) (g.followed slot origin node)
        | _, _ => s
      | .check rel => match p.rels[rel]? with
        | some slot => match s.current.node? slot.source, s.current.node? slot.target with
          | some source, some target =>
            s.each limit (g.tryRel p (g.search p limit steps) rel)
              (g.edgesBetween source target (some slot.type))
          | _, _ => s
        | none => s

/-- The assignments that a plan finds, as many as the limit allows. -/
def runMatch (g : Graph) (p : Pattern) (plan : MatchPlan) (limit : Option Nat) :
    List Assignment :=
  (g.search p limit plan.steps ⟨.vacant p, #[]⟩).found.toList

/-! ## Matching -/

/-- Every match of a pattern from a row, as the row extended by the pattern's
variables. -/
def findAll (g : Graph) (p : Pattern) (row : BindingRow) :
    Except PatternError (List BindingRow) :=
  (g.planMatch p row).map fun plan => (g.runMatch p plan none).map (p.bindRow row)

/-- Whether a pattern has a match from a row. -/
def hasMatch (g : Graph) (p : Pattern) (row : BindingRow) : Except PatternError Bool :=
  (g.planMatch p row).map fun plan => !(g.runMatch p plan (some 1)).isEmpty

end Graph

end PropertyGraph
