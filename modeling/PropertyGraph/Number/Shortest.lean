import PropertyGraph.Number.Binary64

/-!
# Shortest decimal text

The text of a binary64 number is the shortest decimal that reads back as the
number: of the decimal grids 10ᵖ, coarsest first, the first that has a point
among the reals rounding to the number, and on it the point nearest to the
number, the upper one in a tie. It is always written positionally, without an
exponent, and without a fraction when the number is whole.
-/

namespace PropertyGraph

/-- A positive decimal `digits · 10 ^ exponent`. -/
structure Decimal where
  digits : Nat
  exponent : Int
  deriving DecidableEq

/-- The reals that round to one number: the number itself and the two ends,
all counted in parts of 2⁻¹⁰⁷⁶, and whether the ends belong. -/
structure RoundingInterval where
  low : Nat
  value : Nat
  high : Nat
  closed : Bool

namespace RoundingInterval

/-- The reals that round to a finite positive number. They reach halfway to
either neighbour; below a power of two the neighbour is twice as near. The ends
belong if the significand is even, since a tie goes there. -/
def ofFinite (exponent : Fin 2047) (fraction : Fin fractionCount) : RoundingInterval :=
  let significand := Binary64.significand exponent fraction
  let scale := twoPow (Binary64.doublings exponent)
  let below := if fraction.val = 0 ∧ 1 < exponent.val then 1 else 2
  { low := (4 * significand - below) * scale
    value := 4 * significand * scale
    high := (4 * significand + 2) * scale
    closed := significand % 2 == 0 }

/-- Whether `numerator / denominator` parts of 2⁻¹⁰⁷⁶ lie in the interval. -/
def holds (i : RoundingInterval) (numerator denominator : Nat) : Bool :=
  let low := i.low * denominator
  let high := i.high * denominator
  if i.closed then low ≤ numerator && numerator ≤ high
  else low < numerator && numerator < high

/-- The point of the grid 10ᵖ nearest to the value, if one next to the value
lies in the interval. One grid step is `step / parts` parts of 2⁻¹⁰⁷⁶. -/
def onGrid? (i : RoundingInterval) (p : Int) : Option Decimal :=
  let step := Nat.pow 10 p.toNat * twoPow 1076
  let parts := Nat.pow 10 (-p).toNat
  let value := i.value * parts
  let floor := value / step
  let lower := i.holds (floor * step) parts && floor != 0
  let upper := i.holds ((floor + 1) * step) parts
  let nearerUpper := step ≤ 2 * (value % step)
  if upper && (nearerUpper || !lower) then some ⟨floor + 1, p⟩
  else if lower then some ⟨floor, p⟩
  else none

/-- The exponents of the grids that a binary64 number can need, coarsest first. -/
def gridExponents : List Int := (List.range 650).map fun (k : Nat) => 309 - (k : Int)

/-- The shortest decimal in the interval. -/
def shortest (i : RoundingInterval) : Decimal :=
  (gridExponents.findSome? i.onGrid?).getD ⟨0, 0⟩

end RoundingInterval

namespace Decimal

/-- The decimal written positionally. -/
def text (d : Decimal) : String :=
  let digits := toString d.digits
  if 0 ≤ d.exponent then digits ++ "".pushn '0' d.exponent.toNat
  else
    let places := (-d.exponent).toNat
    let padded := "".pushn '0' (places + 1 - digits.length) ++ digits
    let whole := padded.length - places
    String.ofList (padded.toList.take whole) ++ "." ++ String.ofList (padded.toList.drop whole)

end Decimal

namespace Binary64

/-- A minus sign, or nothing. -/
def signText (negative : Bool) : String := if negative then "-" else ""

/-- The text of a number: its shortest decimal, zero with its sign, and words
for the rest. -/
def text : Binary64 → String
  | .finite negative exponent fraction =>
    signText negative ++
      if significand exponent fraction = 0 then "0"
      else (RoundingInterval.ofFinite exponent fraction).shortest.text
  | .infinite negative => signText negative ++ "inf"
  | .notANumber => "NaN"

end Binary64

end PropertyGraph
