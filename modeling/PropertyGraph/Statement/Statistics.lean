/-!
# Statement statistics

What a statement changed, in eight counters.
-/

namespace PropertyGraph

/-- What a statement changed. -/
structure Statistics where
  /-- Labels attached that the graph had never seen before, each once. -/
  labelsAdded : Nat := 0
  nodesCreated : Nat := 0
  relationshipsCreated : Nat := 0
  /-- Property writes, at creation and by updates, whether or not a value changed. -/
  propertiesSet : Nat := 0
  nodesDeleted : Nat := 0
  relationshipsDeleted : Nat := 0
  indicesCreated : Nat := 0
  indicesDeleted : Nat := 0
  deriving DecidableEq

namespace Statistics

/-- Nothing changed. -/
def none : Statistics := {}

/-- Whether nothing changed. -/
def isEmpty (s : Statistics) : Bool := s = none

/-- The counters, in their fixed order. -/
def counts (s : Statistics) : List Nat :=
  [s.labelsAdded, s.nodesCreated, s.relationshipsCreated, s.propertiesSet,
    s.nodesDeleted, s.relationshipsDeleted, s.indicesCreated, s.indicesDeleted]

/-- The names of the counters, in the same order. -/
def counterNames : List String :=
  ["labels added", "nodes created", "relationships created", "properties set",
    "nodes deleted", "relationships deleted", "indices created", "indices deleted"]

/-- The counters that are not zero, or that there are none. -/
def text (s : Statistics) : String :=
  let changes := (counterNames.zip s.counts).filter fun c => c.2 != 0
  if changes.isEmpty then "no changes"
  else ", ".intercalate (changes.map fun c => c.1.capitalize ++ ": " ++ toString c.2)

end Statistics

end PropertyGraph
