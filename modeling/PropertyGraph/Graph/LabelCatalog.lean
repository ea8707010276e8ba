/-!
# The label catalog

Every label that was ever attached to a node, in the order of first attachment.
Labels are never struck from it.
-/

namespace PropertyGraph

/-- The labels ever attached, in order of first attachment. -/
structure LabelCatalog where
  labels : List String
  deriving DecidableEq

namespace LabelCatalog

/-- The catalog of a graph that never had a label. -/
def empty : LabelCatalog := ⟨[]⟩

/-- Whether a label was ever attached. -/
def contains (c : LabelCatalog) (label : String) : Bool := c.labels.contains label

/-- Record a label; one already known keeps its place. -/
def register (c : LabelCatalog) (label : String) : LabelCatalog :=
  if c.contains label then c else ⟨c.labels ++ [label]⟩

end LabelCatalog

end PropertyGraph
