import PropertyGraph.Entity.Node
import PropertyGraph.Value.Text

/-!
# Property predicates

A predicate compares one property with an operand. Null on either side, and so
an absent property, satisfies none of the six operators; the four order
operators hold only between values of one rank.
-/

namespace PropertyGraph

/-- A comparison operator. -/
inductive CompareOp where
  | eq
  | ne
  | lt
  | le
  | gt
  | ge
  deriving DecidableEq

namespace CompareOp

/-- Every operator. -/
def all : List CompareOp := [.eq, .ne, .lt, .le, .gt, .ge]

/-- Whether `value op operand` holds. -/
def holds (op : CompareOp) (value operand : Value) : Bool :=
  !value.isNull && !operand.isNull && match op with
    | .eq => value.equals operand
    | .ne => !value.equals operand
    | .lt => value.compare? operand == some .lt
    | .le => value.compare? operand == some .lt || value.compare? operand == some .eq
    | .gt => value.compare? operand == some .gt
    | .ge => value.compare? operand == some .gt || value.compare? operand == some .eq

/-- The written form of the operator. -/
def symbol : CompareOp → String
  | .eq => "="
  | .ne => "<>"
  | .lt => "<"
  | .le => "<="
  | .gt => ">"
  | .ge => ">="

/-- How much of an index the operator is expected to leave, least first: one
entry, a range, or nearly everything. -/
def breadth : CompareOp → Nat
  | .eq => 0
  | .ne => 2
  | _ => 1

end CompareOp

/-- The condition `key op operand` on a property. -/
structure PropertyPredicate where
  key : String
  op : CompareOp
  operand : Value
  deriving DecidableEq

namespace PropertyPredicate

/-- The predicate that asks for an equal value. -/
def equality (key : String) (operand : Value) : PropertyPredicate := ⟨key, .eq, operand⟩

/-- Whether a property value satisfies the predicate; an absent one never does. -/
def holds (p : PropertyPredicate) : Option Value → Bool
  | some value => p.op.holds value p.operand
  | none => false

/-- The written form of the predicate. -/
def text (p : PropertyPredicate) : String :=
  p.key ++ " " ++ p.op.symbol ++ " " ++ p.operand.text

end PropertyPredicate

/-- Whether a node satisfies every predicate. -/
def Node.satisfies (node : Node) (predicates : List PropertyPredicate) : Bool :=
  predicates.all fun p => p.holds (node.get? p.key)

end PropertyGraph
