import PropertyGraph.Number.Binary64

/-!
# Property values

The scalars that nodes and relationships carry. Null stands for an absent
value: a program may compute with it, but no entity stores it.
-/

namespace PropertyGraph

/-- A scalar property value. -/
inductive Value where
  | null
  | bool (truth : Bool)
  | int (number : Int)
  | float (number : Binary64)
  | string (text : String)
  deriving DecidableEq, Inhabited

namespace Value

/-! ## Kinds -/

def isNull : Value → Bool
  | .null => true
  | _ => false

def isBool : Value → Bool
  | .bool _ => true
  | _ => false

def isInt : Value → Bool
  | .int _ => true
  | _ => false

def isFloat : Value → Bool
  | .float _ => true
  | _ => false

def isString : Value → Bool
  | .string _ => true
  | _ => false

/-- Whether the value is a number of either kind. -/
def isNumeric (v : Value) : Bool := v.isInt || v.isFloat

/-- Whether the value is the float that is not a number. -/
def isNaN : Value → Bool
  | .float x => x.isNaN
  | _ => false

/-- The name of the value's type. -/
def typeName : Value → String
  | .null => "Null"
  | .bool _ => "Bool"
  | .int _ => "Int"
  | .float _ => "Float"
  | .string _ => "String"

/-! ## Contents -/

def asBool? : Value → Option Bool
  | .bool truth => some truth
  | _ => none

def asInt? : Value → Option Int
  | .int number => some number
  | _ => none

/-- The number as a float, a whole number going to the nearest one. -/
def asFloat? : Value → Option Binary64
  | .float number => some number
  | .int number => some (Binary64.ofInt number)
  | _ => none

def asString? : Value → Option String
  | .string text => some text
  | _ => none

end Value

end PropertyGraph
