import PropertyGraph.Graph.Error
import PropertyGraph.Index.PropertyIndex
import PropertyGraph.Ordered.Sort

/-!
# The index registry

The declared property indexes, each named by a label and a property. An index
stands for a rule: it files exactly the nodes that carry the label and have the
property. The registry is told of every change to a node after it was made, and
`verify` checks the rule against a list of nodes.
-/

namespace PropertyGraph

open Std

/-- The name of an index: the label of its nodes and their property. -/
structure IndexName where
  label : String
  property : String
  deriving DecidableEq

namespace IndexName

instance : Ord IndexName := ⟨compareLex (compareOn label) (compareOn property)⟩

instance : TransOrd IndexName :=
  inferInstanceAs (TransCmp (compareLex (compareOn label) (compareOn property)))

instance : LawfulEqOrd IndexName where
  eq_of_compare {a b} h := by
    obtain ⟨labels, properties⟩ := Ordering.then_eq_eq.1 h
    cases a
    cases b
    cases LawfulEqOrd.eq_of_compare labels
    cases LawfulEqOrd.eq_of_compare properties
    rfl

/-- The written form of an index name. -/
def text (name : IndexName) : String := ":" ++ name.label ++ "(" ++ name.property ++ ")"

/-- What the index has to file for a node: its value of the property, if the
node carries the label. -/
def filed? (name : IndexName) (node : Node) : Option Value :=
  if node.hasLabel name.label then node.get? name.property else none

end IndexName

/-- How an index departs from the nodes it stands for. -/
inductive IndexDrift where
  | count (name : IndexName) (held expected : Nat)
  | entry (name : IndexName) (held expected : NodeId × Value)

/-- The message of a departure. -/
def IndexDrift.message : IndexDrift → String
  | .count name held expected =>
    "index " ++ name.text ++ " holds " ++ toString held ++ " entries, expected " ++
      toString expected
  | .entry name held expected =>
    "index " ++ name.text ++ " maps " ++ held.1.text ++ " to " ++ held.2.text ++
      ", node holds " ++ expected.1.text ++ " = " ++ expected.2.text

/-- The declared property indexes. -/
structure IndexRegistry where
  indexes : OrderedMap IndexName PropertyIndex

namespace IndexRegistry

/-- The registry without indexes. -/
def empty : IndexRegistry := ⟨∅⟩

/-- The index of a name, if it is declared. -/
def get? (r : IndexRegistry) (name : IndexName) : Option PropertyIndex := r.indexes.get? name

/-- Whether an index is declared. -/
def declares (r : IndexRegistry) (name : IndexName) : Bool := r.indexes.contains name

/-- The declared names, by label and then by property. -/
def names (r : IndexRegistry) : List IndexName := r.indexes.keys

/-- Whether no index is declared. -/
def isEmpty (r : IndexRegistry) : Bool := r.indexes.isEmpty

/-! ## Declaring and dropping -/

/-- The index that files what a list of nodes has for the name. -/
def filled (name : IndexName) (nodes : List Node) : PropertyIndex :=
  nodes.foldl (fun index node => index.file node.id (name.filed? node)) .empty

/-- Declare an index and fill it from the nodes. -/
def declare (r : IndexRegistry) (name : IndexName) (nodes : List Node) :
    Except GraphError IndexRegistry :=
  if r.declares name then .error (.indexAlreadyExists name.label name.property)
  else .ok ⟨r.indexes.insert name (filled name nodes)⟩

/-- Drop an index. -/
def drop (r : IndexRegistry) (name : IndexName) : Except GraphError IndexRegistry :=
  if r.declares name then .ok ⟨r.indexes.erase name⟩
  else .error (.indexNotFound name.label name.property)

/-! ## Following the nodes -/

/-- Change the indexes of one label by what the node has for their property. -/
def fileUnder (r : IndexRegistry) (label : String) (node : Node)
    (change : PropertyIndex → NodeId → Option Value → PropertyIndex) : IndexRegistry :=
  ⟨r.indexes.mapValues fun name index =>
    if name.label = label then change index node.id (node.get? name.property) else index⟩

/-- A label was attached to the node. -/
def labelAdded (r : IndexRegistry) (node : Node) (label : String) : IndexRegistry :=
  r.fileUnder label node .file

/-- A label was detached from the node. -/
def labelRemoved (r : IndexRegistry) (node : Node) (label : String) : IndexRegistry :=
  r.fileUnder label node .strike

/-- The node was created. -/
def nodeCreated (r : IndexRegistry) (node : Node) : IndexRegistry :=
  node.labels.foldl (fun r label => r.labelAdded node label) r

/-- The node was deleted. -/
def nodeDeleted (r : IndexRegistry) (node : Node) : IndexRegistry :=
  node.labels.foldl (fun r label => r.labelRemoved node label) r

/-- Move a node from one value of an index to another, either of which may be
absent. -/
def refile (index : PropertyIndex) (node : NodeId) (old new : Option Value) :
    PropertyIndex :=
  (index.strike node old).file node new

/-- A property of the node changed from `old` to `new`. -/
def propertyChanged (r : IndexRegistry) (node : Node) (key : String)
    (old new : Option Value) : IndexRegistry :=
  node.labels.foldl
    (fun r label => ⟨r.indexes.modify ⟨label, key⟩ fun index => refile index node.id old new⟩) r

/-! ## Checking -/

/-- Sort nodes with values by the number of the node, keeping the order of
equals. -/
def byNode (entries : List (NodeId × Value)) : List (NodeId × Value) :=
  sortBy (compareOn Prod.fst) entries

/-- What an index has to file for the nodes, by node. -/
def expected (name : IndexName) (nodes : List Node) : List (NodeId × Value) :=
  byNode (nodes.filterMap fun node => (name.filed? node).map fun value => (node.id, value))

/-- What an index files, by node. -/
def held (index : PropertyIndex) : List (NodeId × Value) :=
  byNode (index.toList.map fun posting => (posting.2, posting.1))

/-- Compare two lists of nodes with values, position by position. -/
def verifyEntries (name : IndexName) :
    List (NodeId × Value) → List (NodeId × Value) → Except IndexDrift Unit
  | e :: expected, h :: held =>
    if e.1 = h.1 ∧ compare e.2 h.2 = .eq then verifyEntries name expected held
    else .error (.entry name h e)
  | _, _ => .ok ()

/-- Check one index against the nodes. -/
def verifyIndex (name : IndexName) (index : PropertyIndex) (nodes : List Node) :
    Except IndexDrift Unit :=
  let expected := expected name nodes
  let held := held index
  if expected.length ≠ held.length then .error (.count name held.length expected.length)
  else verifyEntries name expected held

/-- Check every index against the nodes, in the order of their names. -/
def verify (r : IndexRegistry) (nodes : List Node) : Except IndexDrift Unit :=
  r.indexes.entries.forM fun e => verifyIndex e.1 e.2 nodes

end IndexRegistry

end PropertyGraph
