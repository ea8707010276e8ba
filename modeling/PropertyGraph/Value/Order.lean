import PropertyGraph.Number.Line
import PropertyGraph.Value.Basic

/-!
# Order and equality of values

Two relations live side by side. The index order `indexCompare` is total: it
ranks numbers below strings below booleans below null, compares numbers by
their exact values with not-a-number above all of them, and so can file any
value. The comparison `compare?` that predicates use is partial: it answers
only for two values of one rank, neither null nor not-a-number, and then it
answers as the index order does. Values that are equal without being the same,
such as `1` and `1.0`, have one place in the index order.
-/

namespace PropertyGraph

open Std

/-- The rank of a value's type in the index order. -/
inductive TypeRank where
  | numeric
  | string
  | bool
  | null
  deriving DecidableEq

namespace TypeRank

/-- Position of the rank, counted from the lowest. -/
def position : TypeRank → Nat
  | .numeric => 0
  | .string => 1
  | .bool => 2
  | .null => 3

instance : Ord TypeRank := ⟨compareOn position⟩

instance : TransOrd TypeRank := inferInstanceAs (TransCmp (compareOn position))

/-- The name of the rank. -/
def name : TypeRank → String
  | .numeric => "Numeric"
  | .string => "String"
  | .bool => "Bool"
  | .null => "Null"

end TypeRank

namespace Value

/-- The rank of the value's type. -/
def rank : Value → TypeRank
  | .int _ => .numeric
  | .float _ => .numeric
  | .string _ => .string
  | .bool _ => .bool
  | .null => .null

/-- The place of a number on the number line. -/
def linePlace? : Value → Option LinePlace
  | .int n => some (.ofInt n)
  | .float x => some (.ofBinary64 x)
  | _ => none

/-! ## The index order -/

/-- The total order in which indexes keep values. -/
def indexCompare (a b : Value) : Ordering :=
  match a, b with
  | .int m, .int n => compare m n
  | .string s, .string t => compare s t
  | .bool p, .bool q => compare p q
  | a, b => match a.linePlace?, b.linePlace? with
    | some x, some y => compare x y
    | _, _ => compare a.rank b.rank

instance : Ord Value := ⟨indexCompare⟩

/-- The place of the value among the values of its rank, as far as numbers go. -/
def placeOrZero (v : Value) : LinePlace := v.linePlace?.getD (.units 0)

/-- The value's text, empty for all but strings. -/
def textOrEmpty (v : Value) : String := v.asString?.getD ""

/-- The value's truth, false for all but booleans. -/
def truthOrFalse (v : Value) : Bool := v.asBool?.getD false

/-- Scaling both sides to units of 2⁻¹⁰⁷⁴ does not change how whole numbers compare. -/
theorem compare_linePlace_ofInt (m n : Int) :
    compare (LinePlace.ofInt m) (LinePlace.ofInt n) = compare m n := by
  have positive : (0 : Int) < twoPow 1074 := Int.natCast_pos.2 (twoPow_pos 1074)
  have scaled : compare (m * (twoPow 1074 : Int)) (n * (twoPow 1074 : Int)) = compare m n := by
    rcases Int.lt_trichotomy m n with lt | rfl | gt
    · rw [Int.compare_eq_lt.2 lt,
        Int.compare_eq_lt.2 (Int.mul_lt_mul_of_pos_right lt positive)]
    · rw [Int.compare_eq_eq.2 rfl, Int.compare_eq_eq.2 rfl]
    · rw [Int.compare_eq_gt.2 gt,
        Int.compare_eq_gt.2 (Int.mul_lt_mul_of_pos_right gt positive)]
  exact scaled

/-- The index order compares ranks first, and inside a rank places on the
number line, texts or truths. -/
theorem indexCompare_eq_lex :
    indexCompare = compareLex (compareOn rank) (compareLex (compareOn placeOrZero)
      (compareLex (compareOn textOrEmpty) (compareOn truthOrFalse))) := by
  funext a b
  cases a <;> cases b <;>
    simp [indexCompare, compareLex, compareOn, rank, placeOrZero, textOrEmpty, truthOrFalse,
      linePlace?, asString?, asBool?, ReflCmp.compare_self, compare_linePlace_ofInt] <;>
    rfl

instance : TransOrd Value := by
  show TransCmp indexCompare
  rw [indexCompare_eq_lex]
  infer_instance

/-! ## Comparison and equality -/

/-- Compare two values of one rank. There is no answer between ranks, for null
and for not-a-number. -/
def compare? (a b : Value) : Option Ordering :=
  if a.isNaN || b.isNaN then none
  else if a.rank ≠ b.rank || a.isNull then none
  else some (indexCompare a b)

/-- Equality as predicates see it: by numeric value, and never of null or of
not-a-number. -/
def equals (a b : Value) : Bool := a.compare? b == some .eq

end Value

end PropertyGraph
