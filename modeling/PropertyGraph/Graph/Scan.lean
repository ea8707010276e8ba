import PropertyGraph.Graph.Basic

/-!
# Node scans

A scan looks for the nodes that carry an optional label and satisfy a list of
predicates. One of three plans answers it: a property index settles one
predicate and the others are tested on what it yields, or every node of the
label is tested, or every node of the graph is.
-/

namespace PropertyGraph

/-- The first of the elements with the least measure. -/
def leastBy? (measure : α → Nat) : List α → Option α
  | [] => none
  | a :: as => match leastBy? measure as with
    | none => some a
    | some b => if measure a ≤ measure b then some a else some b

/-- A plan for finding nodes. -/
inductive ScanPlan where
  /-- Let the index of the label and the lookup's key settle the lookup, and
  test the rest on the nodes it yields. -/
  | byIndex (label : String) (lookup : PropertyPredicate) (rest : List PropertyPredicate)
  /-- Test every node that carries the label. -/
  | byLabel (label : String) (filters : List PropertyPredicate)
  /-- Test every node. -/
  | everyNode (filters : List PropertyPredicate)
  deriving DecidableEq

namespace ScanPlan

/-- Whether the plan uses a property index. -/
def usesIndex : ScanPlan → Bool
  | .byIndex .. => true
  | _ => false

/-- The plan's kind in words. -/
def name : ScanPlan → String
  | .byIndex .. => "Index Scan"
  | .byLabel .. => "Label Scan"
  | .everyNode .. => "All Node Scan"

/-- The predicates that are tested on nodes one by one. -/
def filters : ScanPlan → List PropertyPredicate
  | .byIndex _ _ rest => rest
  | .byLabel _ filters => filters
  | .everyNode filters => filters

/-- What the plan starts from, as its text shows it. -/
def source : ScanPlan → String
  | .byIndex label lookup _ => " | :" ++ label ++ "(" ++ lookup.text ++ ")"
  | .byLabel label _ => " | :" ++ label
  | .everyNode _ => ""

/-- The plan in one line. -/
def text (plan : ScanPlan) : String :=
  plan.name ++ plan.source ++
    String.join (plan.filters.map fun filter => " | Filter " ++ filter.text)

end ScanPlan

namespace Graph

/-- Choose a plan. Of the predicates that a declared index of the label can
settle, the first of the narrowest operator is looked up. -/
def planScan (g : Graph) (label : Option String) (predicates : List PropertyPredicate) :
    ScanPlan :=
  match label with
  | none => .everyNode predicates
  | some label =>
    let indexed := predicates.zipIdx.filter fun p =>
      !p.1.operand.isNull && g.hasIndex ⟨label, p.1.key⟩
    match leastBy? (fun p => p.1.op.breadth) indexed with
    | some (lookup, position) => .byIndex label lookup (predicates.eraseIdx position)
    | none => .byLabel label predicates

/-- Whether a node is live and satisfies every predicate. -/
def nodeSatisfies (g : Graph) (predicates : List PropertyPredicate) (id : NodeId) : Bool :=
  match g.node? id with
  | some node => node.satisfies predicates
  | none => false

/-- The nodes a plan starts from. An index that is not declared yields none. -/
def scanSource (g : Graph) : ScanPlan → List NodeId
  | .byIndex label lookup _ =>
    match g.rangeScan ⟨label, lookup.key⟩ lookup.op lookup.operand with
    | .ok nodes => nodes
    | .error _ => []
  | .byLabel label _ => g.nodesWithLabel label
  | .everyNode _ => g.nodeIdList

/-- Run a plan. An index plan answers by ascending value and then node, the
others by ascending node. -/
def runScan (g : Graph) (plan : ScanPlan) : List NodeId :=
  (g.scanSource plan).filter (g.nodeSatisfies plan.filters)

/-- Plan and run in one. -/
def scan (g : Graph) (label : Option String) (predicates : List PropertyPredicate) :
    List NodeId :=
  g.runScan (g.planScan label predicates)

end Graph

end PropertyGraph
