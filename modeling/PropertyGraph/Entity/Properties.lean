import PropertyGraph.Ordered.Map
import PropertyGraph.Value.Order

/-!
# Property maps

The properties of an entity, keys in ascending order. Writing null removes the
key, so a map built by writes holds no null.
-/

namespace PropertyGraph

/-- The properties of an entity. -/
abbrev Properties := OrderedMap String Value

namespace Properties

/-- Set a property; null removes it. -/
def write (properties : Properties) (key : String) (value : Value) : Properties :=
  if value.isNull then properties.erase key else properties.insert key value

/-- Write the pairs in turn, so the last one for a key decides. -/
def ofPairs (pairs : List (String × Value)) : Properties :=
  pairs.foldl (fun properties pair => properties.write pair.1 pair.2) ∅

/-- Whether the properties give each of the keys a value equal to the one listed. -/
def satisfy (properties : Properties) (constraints : List (String × Value)) : Bool :=
  constraints.all fun c => match properties.get? c.1 with
    | some actual => actual.equals c.2
    | none => false

end Properties

end PropertyGraph
