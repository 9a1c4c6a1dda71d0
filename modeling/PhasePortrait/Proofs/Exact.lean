import Mathlib.Analysis.Real.Sqrt
import PhasePortrait.Scalar

/-!
# Exact arithmetic

The reals as scalars. Every operation gives the value that it is named for, the square root
included, so what is proved of a definition over them is what it computes when nothing is rounded.
The rational numbers are among them: a picture whose numbers are all rational is a picture here, and
lengths that are not rational are compared as they are.
-/

namespace PhasePortrait

/-- The reals with the operations of a scalar, each of them exact. This instance is what the
geometry of lines and sprites is proved over; the definitions are the same ones that run on machine
numbers. -/
noncomputable instance exactScalar : Scalar ℝ where
  ltDecidable := Real.decidableLT
  leDecidable := Real.decidableLE
  isFinite _ := true
  abs x := |x|
  floor x := ⌊x⌋
  ceil x := ⌈x⌉
  truncate x := if 0 ≤ x then ⌊x⌋ else ⌈x⌉
  remainder x y := x - y * ⌊x / y⌋
  sqrt := Real.sqrt
  beq x y := decide (x = y)

namespace Scalar

/-- The larger of two scalars is written with a comparison, since machine numbers have a value that
compares with none. Over the reals it is the maximum, and its lemmas apply. -/
theorem larger_eq_max (x y : ℝ) : larger x y = max x y := by
  by_cases h : y < x
  · rw [larger, if_pos h, max_eq_left h.le]
  · have hself : (y == y) = true := decide_eq_true rfl
    rw [larger, if_neg h, if_pos hself, max_eq_right (not_lt.mp h)]

/-- In the same way, the smaller of two scalars is the minimum. Both are used on the corners of a
rectangle. -/
theorem smaller_eq_min (x y : ℝ) : smaller x y = min x y := by
  by_cases h : x < y
  · rw [smaller, if_pos h, min_eq_left h.le]
  · have hself : (y == y) = true := decide_eq_true rfl
    rw [smaller, if_neg h, if_pos hself, min_eq_right (not_lt.mp h)]

theorem floor_eq (x : ℝ) : floor x = (⌊x⌋ : ℝ) := rfl

theorem ceil_eq (x : ℝ) : ceil x = (⌈x⌉ : ℝ) := rfl

/-- A whole number is truncated to itself. Rounded sides of a box are whole numbers already, so
taking them as integers loses nothing. -/
theorem truncate_intCast (n : ℤ) : truncate (n : ℝ) = n := by
  show (if (0 : ℝ) ≤ n then ⌊(n : ℝ)⌋ else ⌈(n : ℝ)⌉) = n
  rw [Int.floor_intCast, Int.ceil_intCast, ite_self]

/-- Clamping to the unit interval, as a maximum of a minimum. It is computed by two comparisons, and
this is the form that lattice lemmas are about. -/
theorem clampUnit_eq (x : ℝ) : clampUnit x = max 0 (min 1 x) := by
  have hzero : (0.0 : ℝ) = 0 := by norm_num
  have hone : (1.0 : ℝ) = 1 := by norm_num
  simp only [clampUnit, clamp, hzero, hone]
  split
  next h => rw [max_eq_left (min_le_of_right_le h.le)]
  next h =>
    split
    next hbig => rw [min_eq_left hbig.le, max_eq_right zero_le_one]
    next hsmall => rw [min_eq_right (not_lt.mp hsmall), max_eq_right (not_lt.mp h)]

/-- What is clamped is at least zero, whatever it was. Together with the next lemma this is all that
most uses of clamping need. -/
theorem clampUnit_nonneg (x : ℝ) : 0 ≤ clampUnit x := by
  rw [clampUnit_eq]
  exact le_max_left _ _

/-- What is clamped is at most one: the upper end of the range. -/
theorem clampUnit_le_one (x : ℝ) : clampUnit x ≤ 1 := by
  rw [clampUnit_eq]
  exact max_le zero_le_one (min_le_left _ _)

/-- Clamping keeps the order, so an opacity that rises with the age rises when it is clamped. -/
theorem clampUnit_mono {x y : ℝ} (h : x ≤ y) : clampUnit x ≤ clampUnit y := by
  rw [clampUnit_eq, clampUnit_eq]
  exact max_le_max_left 0 (min_le_min_left 1 h)

/-- What is clamped to zero was at most zero, so an opacity above zero is not clamped away. -/
theorem clampUnit_eq_zero {x : ℝ} : clampUnit x = 0 ↔ x ≤ 0 := by
  rw [clampUnit_eq, max_eq_left_iff, min_le_iff]
  exact or_iff_right (not_le.mpr zero_lt_one)

/-- No value between zero and one is nearer than the one that is clamped. This is why moving a
projection to the ends of its segment makes it the nearest point. -/
theorem sq_clampUnit_sub_le (x : ℝ) {t : ℝ} (hzero : 0 ≤ t) (hone : t ≤ 1) :
    (clampUnit x - x) ^ 2 ≤ (t - x) ^ 2 := by
  rw [clampUnit_eq, sq_le_sq]
  rcases le_total x 0 with hx | hx
  · rw [min_eq_right (hx.trans zero_le_one), max_eq_left hx, abs_of_nonneg (by linarith),
      abs_of_nonneg (by linarith)]
    linarith
  · rcases le_total x 1 with hx' | hx'
    · rw [min_eq_right hx', max_eq_right hx, sub_self, abs_zero]
      exact abs_nonneg _
    · rw [min_eq_left hx', max_eq_right zero_le_one, abs_of_nonpos (by linarith),
        abs_of_nonpos (by linarith)]
      linarith

end Scalar

end PhasePortrait
