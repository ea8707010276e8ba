import PropertyGraph.Number.Line
import Mathlib.Algebra.Order.Field.Rat
import Mathlib.Algebra.Order.Group.Int
import Mathlib.Order.Compare
import Mathlib.Order.WithBot
import Mathlib.Tactic.Linarith
import Mathlib.Tactic.Ring

/-!
# Exact values of numbers

What the fields of a binary64 number say it is, as a rational or an infinity. The
places on the number line are these values in units of 2⁻¹⁰⁷⁴, so comparing places
is comparing exact values. A whole number of 64 bits can also be compared with a
float by the whole part of the float first: that part always fits where it is
compared, and what it leaves off is less than one.
-/

namespace PropertyGraph

/-- A rational or one of the two infinities. -/
abbrev ExactNumber := WithBot (WithTop ℚ)

/-- A rational as an exact number. -/
def ExactNumber.ofRat (q : ℚ) : ExactNumber := ((q : WithTop ℚ) : WithBot (WithTop ℚ))

namespace ExactNumber

theorem ofRat_strictMono : StrictMono ofRat := WithBot.coe_strictMono.comp WithTop.coe_strictMono

theorem bot_lt_ofRat (q : ℚ) : (⊥ : ExactNumber) < ofRat q := WithBot.bot_lt_coe _

theorem ofRat_lt_top (q : ℚ) : ofRat q < ⊤ := WithBot.coe_lt_coe.2 (WithTop.coe_lt_top q)

end ExactNumber

namespace Binary64

/-- The size that the fields give a finite number. With the least exponent field the
fraction is all there is, with the others it follows a one. -/
def fieldValue (exponent : Fin 2047) (fraction : Fin fractionCount) : ℚ :=
  if exponent.val = 0 then fraction.val / 2 ^ 52 * 2 ^ (-1022 : ℤ)
  else (1 + fraction.val / 2 ^ 52) * 2 ^ ((exponent.val : ℤ) - 1023)

/-- The exact value of a number, if it is one. -/
def exactNumber? : Binary64 → Option ExactNumber
  | .finite negative exponent fraction =>
    some (.ofRat (if negative then -fieldValue exponent fraction else fieldValue exponent fraction))
  | .infinite true => some ⊥
  | .infinite false => some ⊤
  | .notANumber => none

/-- The unit of the number line. -/
def unit : ℚ := 2 ^ (-1074 : ℤ)

theorem unit_pos : 0 < unit := zpow_pos two_pos _

theorem cast_twoPow (n : Nat) : ((twoPow n : Nat) : ℚ) = 2 ^ (n : ℤ) :=
  (Nat.cast_pow 2 n).trans (zpow_natCast 2 n).symm

/-- There are 2¹⁰⁷⁴ units to one. -/
theorem twoPow_mul_unit : ((twoPow 1074 : Nat) : ℚ) * unit = 1 := by
  rw [cast_twoPow, unit, ← zpow_add₀ two_ne_zero]
  rfl

/-- The magnitude is the size in units. -/
theorem fieldValue_eq (exponent : Fin 2047) (fraction : Fin fractionCount) :
    fieldValue exponent fraction = magnitude exponent fraction * unit := by
  have split_ : unit = 2 ^ (-1022 : ℤ) / 2 ^ 52 := by
    rw [unit, show (-1074 : ℤ) = -1022 - 52 by rfl, zpow_sub₀ two_ne_zero]
    rfl
  rw [fieldValue, magnitude, significand, Nat.cast_mul, cast_twoPow, split_]
  split
  · rename_i least
    rw [doublings, least]
    simp only [Nat.zero_sub, Nat.cast_zero, zpow_zero]
    ring
  · rename_i greater
    have shift : (exponent.val : ℤ) - 1023 = doublings exponent + -1022 := by
      rw [doublings]
      omega
    have count : (fractionCount : ℚ) = 2 ^ 52 := by norm_num
    rw [shift, zpow_add₀ two_ne_zero, Nat.cast_add, count]
    generalize (2 : ℚ) ^ (-1022 : ℤ) = least
    ring

theorem units_eq (negative : Bool) (exponent : Fin 2047) (fraction : Fin fractionCount) :
    (if negative then -fieldValue exponent fraction else fieldValue exponent fraction) =
      units negative exponent fraction * unit := by
  rw [fieldValue_eq, units]
  cases negative <;> simp

end Binary64

namespace LinePlace

/-- The exact number whose place it is. -/
def exactNumber? : LinePlace → Option ExactNumber
  | .bottom => some ⊥
  | .units multiple => some (.ofRat (multiple * Binary64.unit))
  | .top => some ⊤
  | .aboveAll => none

theorem exactNumber?_ofInt (n : Int) : (ofInt n).exactNumber? = some (.ofRat n) := by
  rw [ofInt, exactNumber?, Int.cast_mul, Int.cast_natCast, mul_assoc, Binary64.twoPow_mul_unit,
    mul_one]

theorem exactNumber?_ofBinary64 (x : Binary64) : (ofBinary64 x).exactNumber? = x.exactNumber? := by
  cases x with
  | finite negative exponent fraction =>
    rw [ofBinary64, exactNumber?, Binary64.exactNumber?, Binary64.units_eq]
  | infinite negative => cases negative <;> rfl
  | notANumber => rfl

theorem cmp_mul_unit (m n : Int) :
    cmp (ExactNumber.ofRat (m * Binary64.unit)) (ExactNumber.ofRat (n * Binary64.unit)) =
      compare m n := by
  have scaled : StrictMono fun multiple : Int => ExactNumber.ofRat (multiple * Binary64.unit) :=
    ExactNumber.ofRat_strictMono.comp fun _ _ lt =>
      mul_lt_mul_of_pos_right (Int.cast_lt.2 lt) Binary64.unit_pos
  exact (scaled.cmp_map_eq m n).trans (cmp_eq_compare m n)

/-- Comparing places compares the exact numbers whose places they are. -/
theorem compare_eq_cmp {p q : LinePlace} {u v : ExactNumber} (hp : p.exactNumber? = some u)
    (hq : q.exactNumber? = some v) : compare p q = cmp u v := by
  cases p <;> cases q <;> cases hp <;> cases hq
  case bottom.bottom => exact (cmp_self_eq_eq _).symm
  case bottom.units => exact (cmp_eq_lt_iff _ _).2 (ExactNumber.bot_lt_ofRat _) |>.symm
  case bottom.top => exact (cmp_eq_lt_iff _ _).2 bot_lt_top |>.symm
  case units.bottom => exact (cmp_eq_gt_iff _ _).2 (ExactNumber.bot_lt_ofRat _) |>.symm
  case units.units m n => exact (cmp_mul_unit m n).symm
  case units.top => exact (cmp_eq_lt_iff _ _).2 (ExactNumber.ofRat_lt_top _) |>.symm
  case top.bottom => exact (cmp_eq_gt_iff _ _).2 bot_lt_top |>.symm
  case top.units => exact (cmp_eq_gt_iff _ _).2 (ExactNumber.ofRat_lt_top _) |>.symm
  case top.top => exact (cmp_self_eq_eq _).symm

end LinePlace

/-! ## Comparing by whole parts -/

/-- A whole number moved into the range of 64 bits. -/
def saturated (n : Int) : Int := max (-9223372036854775808) (min n 9223372036854775807)

/-- Compare a whole number of 64 bits with a float. A float outside of the range of
such numbers is decided by its side; inside, the number is compared with the whole
part of the float, and if they are equal what was left off decides. -/
def compareByWholePart (n : Int64) : Binary64 → Ordering
  | .notANumber => .lt
  | .infinite negative => if negative then .gt else .lt
  | .finite negative exponent fraction =>
    let units := Binary64.units negative exponent fraction
    if 9223372036854775808 * (twoPow 1074 : Int) ≤ units then .lt
    else if units < -9223372036854775808 * (twoPow 1074 : Int) then .gt
    else
      let whole := units.tdiv (twoPow 1074)
      (compare n.toInt (saturated whole)).then (compare (whole * (twoPow 1074 : Int)) units)

/-- Leaving off a part of less than one unit decides nothing but a tie. -/
theorem compare_mul_tdiv {unit : Int} (positive : 0 < unit) (n units : Int) :
    (compare n (units.tdiv unit)).then (compare (units.tdiv unit * unit) units) =
      compare (n * unit) units := by
  have parts := Int.mul_tdiv_add_tmod units unit
  have small := Int.tmod_lt_of_pos units positive
  have large := Int.lt_tmod_of_pos units positive
  generalize units.tdiv unit = whole at parts ⊢
  generalize units.tmod unit = rest at parts small large
  rcases Int.lt_trichotomy n whole with less | rfl | greater
  · have apart := Int.mul_le_mul_of_nonneg_right (Int.add_one_le_of_lt less) positive.le
    have lower : n * unit < units := by linarith
    rw [Int.compare_eq_lt.2 less, Int.compare_eq_lt.2 lower]
    rfl
  · rw [Int.compare_eq_eq.2 rfl]
    rfl
  · have apart := Int.mul_le_mul_of_nonneg_right (Int.add_one_le_of_lt greater) positive.le
    have higher : units < n * unit := by linarith
    rw [Int.compare_eq_gt.2 greater, Int.compare_eq_gt.2 higher]
    rfl

/-- The whole part of a float that is not decided by its side has 64 bits. -/
theorem saturated_tdiv {unit units : Int} (positive : 0 < unit)
    (low : -9223372036854775808 * unit ≤ units) (high : units < 9223372036854775808 * unit) :
    saturated (units.tdiv unit) = units.tdiv unit := by
  have parts := Int.mul_tdiv_add_tmod units unit
  have small := Int.tmod_lt_of_pos units positive
  have large := Int.lt_tmod_of_pos units positive
  have sides : 0 ≤ units ∧ 0 ≤ units.tmod unit ∨ units ≤ 0 ∧ units.tmod unit ≤ 0 := by
    rcases le_total 0 units with above | below
    · exact .inl ⟨above, Int.tmod_nonneg unit above⟩
    · have mirrored := Int.tmod_nonneg unit (neg_nonneg.2 below)
      rw [Int.neg_tmod, neg_nonneg] at mirrored
      exact .inr ⟨below, mirrored⟩
  generalize units.tdiv unit = whole at parts ⊢
  generalize units.tmod unit = rest at parts small large sides
  have bounds : -9223372036854775808 ≤ whole ∧ whole ≤ 9223372036854775807 := by
    rcases sides with ⟨above, rest_above⟩ | ⟨below, rest_below⟩
    · have lower : -1 < whole := lt_of_mul_lt_mul_right (a := unit) (by linarith) positive.le
      have upper : whole < 9223372036854775808 :=
        lt_of_mul_lt_mul_right (a := unit) (by linarith) positive.le
      omega
    · have lower : -9223372036854775809 < whole :=
        lt_of_mul_lt_mul_right (a := unit) (by linarith) positive.le
      have upper : whole < 1 := lt_of_mul_lt_mul_right (a := unit) (by linarith) positive.le
      omega
  rw [saturated, min_eq_left bounds.2, max_eq_right bounds.1]

/-- Comparing by whole parts compares places. -/
theorem compareByWholePart_eq (n : Int64) (x : Binary64) :
    compareByWholePart n x = compare (LinePlace.ofInt n.toInt) (.ofBinary64 x) := by
  cases x with
  | notANumber => rfl
  | infinite negative => cases negative <;> rfl
  | finite negative exponent fraction =>
    have positive : (0 : Int) < twoPow 1074 := Int.natCast_pos.2 (twoPow_pos 1074)
    have below := Int.mul_lt_mul_of_pos_right n.toInt_lt positive
    have above := Int.mul_le_mul_of_nonneg_right n.le_toInt positive.le
    show _ = compare (n.toInt * (twoPow 1074 : Int)) (Binary64.units negative exponent fraction)
    dsimp only [compareByWholePart]
    generalize (twoPow 1074 : Int) = unit at *
    generalize Binary64.units negative exponent fraction = units
    split_ifs with high low
    · rw [Int.compare_eq_lt.2 (below.trans_le high)]
    · rw [Int.compare_eq_gt.2 (low.trans_le above)]
    · have inside := saturated_tdiv positive (Int.not_lt.1 low) (Int.not_le.1 high)
      rw [inside, compare_mul_tdiv positive]

end PropertyGraph
