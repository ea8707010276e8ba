import PropertyGraph.Number.Binary64

/-!
# The number line

Whole numbers and binary64 numbers have their places on one line: the exact
multiple of 2⁻¹⁰⁷⁴ for a finite number, the ends for the infinities, and a
place above everything for not-a-number. Comparing places compares the exact
values, so no rounding can blur a whole number beyond 2⁵³ with its neighbour.
-/

namespace PropertyGraph

open Std

/-- A place on the number line. -/
inductive LinePlace where
  | bottom
  | units (multiple : Int)
  | top
  | aboveAll
  deriving DecidableEq

namespace LinePlace

/-- Which of the four stretches of the line the place lies in. -/
def stretch : LinePlace → Nat
  | .bottom => 0
  | .units _ => 1
  | .top => 2
  | .aboveAll => 3

/-- Where the place lies in its stretch. -/
def offset : LinePlace → Int
  | .units multiple => multiple
  | _ => 0

instance : Ord LinePlace := ⟨compareLex (compareOn stretch) (compareOn offset)⟩

instance : TransOrd LinePlace :=
  inferInstanceAs (TransCmp (compareLex (compareOn stretch) (compareOn offset)))

/-- The place of a whole number. -/
def ofInt (n : Int) : LinePlace := .units (n * (twoPow 1074 : Int))

/-- The place of a binary64 number. Both zeros have the place of zero. -/
def ofBinary64 : Binary64 → LinePlace
  | .finite negative exponent fraction => .units (Binary64.units negative exponent fraction)
  | .infinite true => .bottom
  | .infinite false => .top
  | .notANumber => .aboveAll

end LinePlace

end PropertyGraph
