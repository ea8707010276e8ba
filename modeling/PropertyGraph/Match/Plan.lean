import PropertyGraph.Graph.Scan
import PropertyGraph.Pattern.Basic

/-!
# Match plans

A match plan is a list of steps, each of which puts entities into slots of a
pattern: the entities that the row fixes, then for every part of the pattern a
scan for one of its nodes and walks along its relationships from there.
-/

namespace PropertyGraph

/-- One step of a match plan. -/
inductive MatchStep where
  /-- Put the node that the row fixes into its slot. -/
  | boundNode (slot : Nat) (node : NodeId)
  /-- Put the relationship that the row fixes into its slot, and its ends into
  theirs. -/
  | boundRel (rel : Nat) (id : RelId)
  /-- Try each of the nodes that a scan found. -/
  | seed (slot : Nat) (scan : ScanPlan) (candidates : List NodeId)
  /-- Follow a relationship slot from the filled slot `origin` to the vacant
  slot `goal`. -/
  | expand (rel origin goal : Nat)
  /-- Look for a relationship between two filled slots. -/
  | check (rel : Nat)
  deriving DecidableEq

namespace MatchStep

/-- Whether the step scans with a property index. -/
def usesIndex : MatchStep → Bool
  | .seed _ scan _ => scan.usesIndex
  | _ => false

/-- The step in one line. -/
def text : MatchStep → String
  | .boundNode slot node => "Bound #" ++ toString slot ++ " = " ++ node.text
  | .boundRel rel id => "Bound rel #" ++ toString rel ++ " = " ++ id.text
  | .seed slot scan _ => scan.text ++ " #" ++ toString slot
  | .expand rel origin goal =>
    "Expand #" ++ toString origin ++ " -[#" ++ toString rel ++ "]- #" ++ toString goal
  | .check rel => "Check rel #" ++ toString rel

end MatchStep

/-- The steps of a match, in order. -/
structure MatchPlan where
  steps : List MatchStep
  deriving DecidableEq

namespace MatchPlan

/-- The nodes that the plan scanned for a slot, if it scanned for it. -/
def candidates? (plan : MatchPlan) (slot : Nat) : Option (List NodeId) :=
  plan.steps.findSome? fun
    | .seed seeded _ candidates => if seeded = slot then some candidates else none
    | _ => none

/-- Whether some step scans with a property index. -/
def usesIndex (plan : MatchPlan) : Bool := plan.steps.any MatchStep.usesIndex

/-- The steps, a line each. -/
def text (plan : MatchPlan) : String := "\n".intercalate (plan.steps.map MatchStep.text)

end MatchPlan

end PropertyGraph
