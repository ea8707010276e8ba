import PropertyGraph.Pattern.Basic
import PropertyGraph.Pattern.Error
import PropertyGraph.Pattern.Path

/-!
# Patterns of paths

Paths are read one after the other, each from left to right, and what they say
of one variable is gathered in one slot. The first fault met ends the reading.
-/

namespace PropertyGraph

namespace Pattern

/-! ## Gathering literals -/

/-- Add literals to those of a slot. A key given again must be given a value
equal in index order, and the first one stays. -/
def gather (var : String) (known : List (String × Value)) :
    List (String × Value) → Except PatternError (List (String × Value))
  | [] => .ok known
  | literal :: rest =>
    if literal.2.isNull then .error (.nullProperty var literal.1)
    else match known.find? fun other => other.1 == literal.1 with
      | none => gather var (known ++ [literal]) rest
      | some other =>
        if compare other.2 literal.2 = .eq then gather var known rest
        else .error (.conflictingProperty var literal.1)

/-! ## Nodes -/

/-- Open a node slot. -/
def openSlot (p : Pattern) (var : Option String) : Nat × Pattern :=
  (p.nodes.length,
    { p with nodes := p.nodes ++ [⟨var, [], []⟩], order := p.order ++ [.node p.nodes.length] })

/-- The slot for a node descriptor: that of its variable, if it has one already. -/
def slotFor (p : Pattern) (var : Option String) : Except PatternError (Nat × Pattern) :=
  match var with
  | none => .ok (p.openSlot none)
  | some name =>
    if (p.relSlot? name).isSome then .error (.variableKindConflict name)
    else match p.nodeSlot? name with
      | some slot => .ok (slot, p)
      | none => .ok (p.openSlot (some name))

/-- A slot with what a descriptor says added to it. -/
def describe (slot : NodeSlot) (node : NodeDescriptor) : Except PatternError NodeSlot :=
  let labels := match node.label with
    | some label => if slot.labels.contains label then slot.labels else slot.labels ++ [label]
    | none => slot.labels
  (gather (node.var.getD "_") slot.literals node.literals).map fun literals =>
    { slot with labels, literals }

/-- Add a node descriptor; answers its slot. -/
def addNode (p : Pattern) (node : NodeDescriptor) : Except PatternError (Nat × Pattern) := do
  let (slot, p) ← p.slotFor node.var
  let described ← describe (p.nodes[slot]?.getD ⟨node.var, [], []⟩) node
  return (slot, { p with nodes := p.nodes.set slot described })

/-! ## Relationships -/

/-- Refuse a relationship variable that is in use. -/
def checkRelVar (p : Pattern) : Option String → Except PatternError Unit
  | none => .ok ()
  | some name =>
    if (p.nodeSlot? name).isSome then .error (.variableKindConflict name)
    else if (p.relSlot? name).isSome then .error (.duplicateRelVariable name)
    else .ok ()

/-- Add a relationship descriptor between two node slots. Its place in the order
of slots is `mark`. -/
def addRel (p : Pattern) (rel : RelDescriptor) (left right mark : Nat) :
    Except PatternError Pattern := do
  if rel.type.isEmpty then throw .missingRelType
  p.checkRelVar rel.var
  let literals ← gather (rel.var.getD "_") [] rel.literals
  let (source, target) := match rel.direction with
    | .outgoing => (left, right)
    | .incoming => (right, left)
  return { p with
    rels := p.rels ++ [⟨rel.var, rel.type, source, target, literals⟩]
    order := p.order.insertIdx mark (.rel p.rels.length) }

/-! ## Paths -/

/-- Add the hops of a path from the node slot `left` on. A relationship stands
before its right-hand node in the order of slots, though the node is read
first. -/
def addHops (p : Pattern) (left : Nat) :
    List (RelDescriptor × NodeDescriptor) → Except PatternError Pattern
  | [] => .ok p
  | hop :: hops => do
    let mark := p.order.length
    let (right, p) ← p.addNode hop.2
    let p ← p.addRel hop.1 left right mark
    p.addHops right hops

/-- Add a path. A path of nothing adds nothing; any other must have one more
node than relationships. -/
def addPath (p : Pattern) (path : Path) : Except PatternError Pattern :=
  match path.nodes with
  | [] =>
    if path.rels.isEmpty then .ok p else .error (.malformedPath 0 path.rels.length)
  | first :: others =>
    if path.rels.length ≠ others.length then
      .error (.malformedPath path.nodes.length path.rels.length)
    else do
      let (left, p) ← p.addNode first
      p.addHops left (path.rels.zip others)

/-- Join paths into a pattern. At least one path must have a node. -/
def ofPaths (paths : List Path) : Except PatternError Pattern :=
  if paths.all fun path => path.nodes.isEmpty then .error .emptyPattern
  else paths.foldlM addPath empty

/-- The pattern of a single path. -/
def ofPath (path : Path) : Except PatternError Pattern := ofPaths [path]

end Pattern

end PropertyGraph
