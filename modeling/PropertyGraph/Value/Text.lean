import PropertyGraph.Number.Shortest
import PropertyGraph.Value.Basic

/-!
# Text of a value

How a value is shown in predicates, plans and messages.
-/

namespace PropertyGraph

/-- The text of a value; a string stands raw between single quotes. -/
def Value.text : Value → String
  | .null => "null"
  | .bool truth => if truth then "true" else "false"
  | .int number => toString number
  | .float number => number.text
  | .string text => "'" ++ text ++ "'"

end PropertyGraph
