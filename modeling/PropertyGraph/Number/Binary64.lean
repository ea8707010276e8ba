/-!
# Binary64 numbers

A 64-bit floating-point number by what its fields say: a finite number with
its sign, exponent and fraction, one of two infinities, or not a number. Every
finite number is a whole multiple of 2⁻¹⁰⁷⁴, the smallest positive one, and
`units` says which; the order of numbers and their decimal text are computed
from that multiple, never by rounding.
-/

namespace PropertyGraph

/-- A power of two. -/
def twoPow (n : Nat) : Nat := Nat.pow 2 n

theorem twoPow_pos (n : Nat) : 0 < twoPow n := Nat.pow_pos (by decide)

/-- The number of fractions, 2⁵². -/
abbrev fractionCount : Nat := 4503599627370496

/-- A 64-bit floating-point number. The two zeros are different numbers here;
which of the many words for not-a-number was given is not kept. -/
inductive Binary64 where
  | finite (negative : Bool) (exponent : Fin 2047) (fraction : Fin fractionCount)
  | infinite (negative : Bool)
  | notANumber
  deriving DecidableEq

namespace Binary64

instance : Inhabited Binary64 := ⟨.finite false 0 0⟩

/-! ## Words -/

/-- The number with the given sign, exponent field and fraction field. The
largest exponent field marks the infinities and not-a-number. -/
def ofFields (negative : Bool) (exponent fraction : Nat) : Binary64 :=
  if h : exponent < 2047 then
    .finite negative ⟨exponent, h⟩ (Fin.ofNat fractionCount fraction)
  else if fraction = 0 then .infinite negative
  else .notANumber

/-- The number that a 64-bit word stands for. -/
def ofWord (word : Nat) : Binary64 :=
  ofFields (word / twoPow 63 % 2 = 1) (word / fractionCount % 2048) (word % fractionCount)

/-- The sign bit of a word. -/
def signWord (negative : Bool) : Nat := if negative then twoPow 63 else 0

/-- The word that stands for a number; not-a-number has the quiet word. -/
def toWord : Binary64 → Nat
  | .finite negative exponent fraction =>
    signWord negative + exponent.val * fractionCount + fraction.val
  | .infinite negative => signWord negative + 2047 * fractionCount
  | .notANumber => 2047 * fractionCount + twoPow 51

/-- Whether the number is not a number. -/
def isNaN : Binary64 → Bool
  | .notANumber => true
  | _ => false

/-! ## Exact values -/

/-- The significand of a finite number: the fraction, with the leading bit
that every exponent but the least implies. -/
def significand (exponent : Fin 2047) (fraction : Fin fractionCount) : Nat :=
  if exponent.val = 0 then fraction.val else fractionCount + fraction.val

/-- How often the significand is doubled, counted from 2⁻¹⁰⁷⁴. -/
def doublings (exponent : Fin 2047) : Nat := exponent.val - 1

/-- The size of a finite number in units of 2⁻¹⁰⁷⁴. -/
def magnitude (exponent : Fin 2047) (fraction : Fin fractionCount) : Nat :=
  significand exponent fraction * twoPow (doublings exponent)

/-- A finite number in units of 2⁻¹⁰⁷⁴. -/
def units (negative : Bool) (exponent : Fin 2047) (fraction : Fin fractionCount) : Int :=
  if negative then -(magnitude exponent fraction : Int) else magnitude exponent fraction

/-! ## Integers -/

/-- Divide by a power of two, to the nearest whole number, a half going to the
even neighbour. -/
def roundShift (n shift : Nat) : Nat :=
  let divisor := twoPow shift
  let quotient := n / divisor
  let doubled := 2 * (n % divisor)
  if doubled < divisor then quotient
  else if doubled = divisor ∧ quotient % 2 = 0 then quotient
  else quotient + 1

/-- The nearest number to a whole number, a tie going to the even significand.
A significand that rounds up to 2⁵³ carries into the exponent field. -/
def ofInt (n : Int) : Binary64 :=
  let size := n.natAbs
  if size = 0 then .finite false 0 0
  else
    let top := size.log2
    let rounded := if top ≤ 52 then size * twoPow (52 - top) else roundShift size (top - 52)
    let word := (top + 1022) * fractionCount + rounded
    ofFields (n < 0) (word / fractionCount) (word % fractionCount)

end Binary64

end PropertyGraph
