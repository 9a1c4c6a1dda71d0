import PhasePortrait.Decimal.Shortest
import PhasePortrait.Proofs.Binary64.Rounding

/-!
# Shortest decimals are near

The interval around a finite value holds what is near to it, the middles to the neighbours counted
as rounding counts them (`Interval.Holds.isNear`). A point that is taken from a grid lies in the
interval (`Interval.holds_of_onGrid?`), and a grid that is finer than the interval is wide has such
a point (`Interval.onGrid?_isSome`).

The grid of seventeen digits is that fine, so the search never runs past it: **the shortest decimal
of a value is near the value** (`shortest_isNear`).
-/

namespace PhasePortrait.Decimal

open PhasePortrait.Binary64 (Parts IsCanonical IsNear below leadingBit)

/-- The exact value of a decimal. -/
def value (d : Decimal) : ℚ := d.digits * 10 ^ d.exponent

/-! ## Powers -/

/-- A power as it is computed with, its negative part on the other side. -/
theorem pow_toNat (b : ℕ) (hb : b ≠ 0) (k : ℤ) :
    ((Nat.pow b k.toNat : ℕ) : ℚ) = b ^ k * (Nat.pow b (-k).toNat : ℕ) := by
  have hb' : (b : ℚ) ≠ 0 := by exact_mod_cast hb
  simp only [Nat.pow_eq, Nat.cast_pow]
  rw [← zpow_natCast, ← zpow_natCast, ← zpow_add₀ hb']
  congr 1
  omega

/-- Zeros at the end of the digits are told by the exponent as well, so dropping them leaves the
value. -/
theorem stripZeros_value (d : Decimal) : d.stripZeros.value = d.value := by
  induction d using stripZeros.induct with
  | case1 d hzero => simp [stripZeros, hzero, value]
  | case2 d hpos hten ih =>
    have hdigits : ((d.digits : ℕ) : ℚ) = 10 * (d.digits / 10 : ℕ) := by
      exact_mod_cast (Nat.mul_div_cancel' (Nat.dvd_of_mod_eq_zero hten)).symm
    rw [stripZeros, if_neg hpos, if_pos hten, ih, value, value, hdigits,
      zpow_add_one₀ (by norm_num)]
    ring
  | case3 d hpos hten => rw [stripZeros, if_neg hpos, if_neg hten]

/-- The first digit of a quotient stands for no more than the quotient. The magnitude counts the
digits before the point, or the zeros behind it where there are none, and each of the two has a case
of its own. -/
theorem magnitude_le {num den : ℕ} (hnum : 0 < num) (hden : 0 < den) :
    (10 : ℚ) ^ (magnitude num den - 1) * den ≤ num := by
  unfold magnitude
  split
  next hle =>
    obtain ⟨k, hk⟩ : ∃ k, (Nat.toDigits 10 (num / den)).length = k + 1 :=
      Nat.exists_eq_add_one.mpr Nat.length_toDigits_pos
    have hpow : 10 ^ k ≤ num / den := by
      rcases Nat.eq_zero_or_pos k with rfl | hpos
      · exact Nat.div_pos hle hden
      · rw [← Nat.not_lt, ← Nat.length_toDigits_le_iff (by decide) hpos]
        omega
    have hcast : ((10 ^ k * den : ℕ) : ℚ) ≤ num := by
      exact_mod_cast (Nat.le_div_iff_mul_le hden).mp hpow
    rw [hk]
    push_cast at hcast ⊢
    rw [add_sub_cancel_right, zpow_natCast]
    exact hcast
  next hlt =>
    generalize hk : (Nat.toDigits 10 ((den - 1) / num)).length = k
    have hpow : (den - 1) / num < 10 ^ k :=
      (Nat.length_toDigits_le_iff (by decide) (hk ▸ Nat.length_toDigits_pos)).mp hk.le
    have hcast : (den : ℚ) ≤ num * 10 ^ k := by
      rw [Nat.div_lt_iff_lt_mul hnum] at hpow
      have hle : den ≤ num * 10 ^ k := by
        rw [Nat.mul_comm]
        omega
      exact_mod_cast hle
    rw [show 1 - (k : ℤ) - 1 = -k by ring, zpow_neg, zpow_natCast, inv_mul_le_iff₀ (by positivity),
      mul_comm]
    exact hcast

namespace Interval

/-! ## Intervals -/

/-- The value lies strictly within its interval, and the unit is above zero. So it is for the
interval of every number other than zero. -/
structure IsProper (i : Interval) : Prop where
  low : i.low < i.value
  high : i.value < i.high
  unit : 0 < i.unit

/-- The interval holds a number, the ends only if it is closed. -/
structure Holds (i : Interval) (x : ℚ) : Prop where
  low : i.low ≤ x * i.unit
  high : x * i.unit ≤ i.high
  inside : i.closed = false → i.low < x * i.unit ∧ x * i.unit < i.high

variable {i : Interval} {tie : Tie} {exponent : ℤ}

/-- An end of an interval bounds what is in it, whether the end itself is in it or not. -/
theorem le_of_within {a b : ℕ} (h : i.within a b = true) : a ≤ b := by
  unfold within at h
  split at h
  · exact of_decide_eq_true h
  · exact (of_decide_eq_true h).le

theorem lt_of_within {a b : ℕ} (h : i.within a b = true) (hopen : i.closed = false) : a < b := by
  rw [within, hopen, if_neg Bool.false_ne_true] at h
  exact of_decide_eq_true h

theorem within_of_lt {a b : ℕ} (h : a < b) : i.within a b = true := by
  unfold within
  split
  · exact decide_eq_true h.le
  · exact decide_eq_true h

section Grid

variable {n up step : ℕ} (hup : 0 < up) (hstep : (step : ℚ) = 10 ^ exponent * i.unit * up)
include hup hstep

/-- Points of a grid and ends of an interval are compared in whole numbers, each multiplied by what
the other is divided by. Over the rationals that is a comparison of the two themselves. There is one
lemma for each way of comparing. -/
theorem le_point_iff {a : ℕ} : a * up ≤ n * step ↔ (a : ℚ) ≤ n * 10 ^ exponent * i.unit := by
  have hup' : (0 : ℚ) < up := by exact_mod_cast hup
  rw [← Nat.cast_le (α := ℚ), Nat.cast_mul, Nat.cast_mul, hstep, ← mul_assoc, ← mul_assoc,
    mul_le_mul_iff_left₀ hup']

theorem point_le_iff {a : ℕ} : n * step ≤ a * up ↔ (n : ℚ) * 10 ^ exponent * i.unit ≤ a := by
  have hup' : (0 : ℚ) < up := by exact_mod_cast hup
  rw [← Nat.cast_le (α := ℚ), Nat.cast_mul, Nat.cast_mul, hstep, ← mul_assoc, ← mul_assoc,
    mul_le_mul_iff_left₀ hup']

theorem lt_point_iff {a : ℕ} : a * up < n * step ↔ (a : ℚ) < n * 10 ^ exponent * i.unit :=
  lt_iff_lt_of_le_iff_le (point_le_iff hup hstep)

theorem point_lt_iff {a : ℕ} : n * step < a * up ↔ (n : ℚ) * 10 ^ exponent * i.unit < a :=
  lt_iff_lt_of_le_iff_le (le_point_iff hup hstep)

/-- A point on the lower side of the value. -/
theorem holds_of_lower (hi : i.IsProper) (hlow : i.within (i.low * up) (n * step) = true)
    (hvalue : n * step ≤ i.value * up) : i.Holds (n * 10 ^ exponent) := by
  have hhigh : n * step < i.high * up :=
    hvalue.trans_lt (Nat.mul_lt_mul_of_pos_right hi.high hup)
  rw [point_lt_iff hup hstep] at hhigh
  exact ⟨(le_point_iff hup hstep).mp (le_of_within hlow), hhigh.le, fun hopen =>
    ⟨(lt_point_iff hup hstep).mp (lt_of_within hlow hopen), hhigh⟩⟩

/-- A point on the upper side of the value. -/
theorem holds_of_upper (hi : i.IsProper) (hhigh : i.within (n * step) (i.high * up) = true)
    (hvalue : i.value * up ≤ n * step) : i.Holds (n * 10 ^ exponent) := by
  have hlow : i.low * up < n * step :=
    (Nat.mul_lt_mul_of_pos_right hi.low hup).trans_le hvalue
  rw [lt_point_iff hup hstep] at hlow
  exact ⟨hlow.le, (point_le_iff hup hstep).mp (le_of_within hhigh), fun hopen =>
    ⟨hlow, (point_lt_iff hup hstep).mp (lt_of_within hhigh hopen)⟩⟩

end Grid

/-- The distance of two points of a grid, in whole numbers. -/
theorem step_eq (i : Interval) (exponent : ℤ) :
    ((i.unit * Nat.pow 10 exponent.toNat : ℕ) : ℚ) =
      10 ^ exponent * i.unit * (Nat.pow 10 (-exponent).toNat : ℕ) := by
  have hpow := pow_toNat 10 (by decide) exponent
  push_cast at hpow ⊢
  rw [hpow]
  ring

/-- The scale of a grid is positive, so multiplying by it keeps the order. -/
theorem pow_ten_pos (k : ℕ) : 0 < Nat.pow 10 k := Nat.pow_pos (by decide)

/-- The points on either side of the value, in whole numbers. They are next to each other in the
grid, and the lower one may be the value itself. -/
theorem value_between (hi : i.IsProper) (exponent : ℤ) :
    let step := i.unit * Nat.pow 10 exponent.toNat
    let up := Nat.pow 10 (-exponent).toNat
    i.value * up / step * step ≤ i.value * up ∧
      i.value * up < (i.value * up / step + 1) * step := by
  intro step up
  have hpos : 0 < step := Nat.mul_pos hi.unit (pow_ten_pos _)
  refine ⟨Nat.div_mul_le_self _ _, ?_⟩
  rw [Nat.mul_comm (_ + 1)]
  exact Nat.lt_mul_div_succ _ hpos

/-- **A point taken from a grid lies in the interval.** It is one of the two next to the value.
Where both are in the interval one of them is chosen, and which one does not matter here. -/
theorem holds_of_onGrid? (hi : i.IsProper) {n : ℕ} (h : i.onGrid? tie exponent = some n) :
    i.Holds (n * 10 ^ exponent) := by
  obtain ⟨hbelow, habove⟩ := value_between hi exponent
  have hstep := step_eq i exponent
  have hup := pow_ten_pos (-exponent).toNat
  unfold onGrid? at h
  dsimp only at h hbelow habove
  generalize i.unit * Nat.pow 10 exponent.toNat = step at h hbelow habove hstep
  generalize Nat.pow 10 (-exponent).toNat = up at h hbelow habove hstep hup
  generalize i.value * up / step = k at h hbelow habove
  have hlower := fun hwithin => holds_of_lower hup hstep hi hwithin hbelow
  have hupper := fun hwithin => holds_of_upper hup hstep hi hwithin habove.le
  split at h
  next => cases h
  next hlow _ =>
    cases h
    exact hlower hlow
  next hhigh =>
    cases h
    exact hupper hhigh
  next hlow hhigh =>
    -- Both points are in the interval, so any choice between them is.
    have hboth : n = k ∨ n = k + 1 := by
      split at h
      · exact .inl (Option.some.inj h).symm
      · split at h
        · exact .inr (Option.some.inj h).symm
        · cases tie with
          | away => exact .inr (Option.some.inj h).symm
          | even =>
            have := Option.some.inj h
            omega
    rcases hboth with rfl | rfl
    · exact hlower hlow
    · exact hupper hhigh

/-- **A grid that is finer than the interval is wide has a point in it.** Otherwise the interval
would lie between two neighbours of the grid, around the value, and would not be wider than they are
apart. -/
theorem onGrid?_isSome (hi : i.IsProper)
    (hfine : (10 : ℚ) ^ exponent * i.unit < i.high - i.low) :
    (i.onGrid? tie exponent).isSome = true := by
  obtain ⟨hbelow, habove⟩ := value_between hi exponent
  have hstep := step_eq i exponent
  have hup := pow_ten_pos (-exponent).toNat
  unfold onGrid?
  dsimp only at hbelow habove ⊢
  generalize i.unit * Nat.pow 10 exponent.toNat = step at hbelow habove hstep ⊢
  generalize Nat.pow 10 (-exponent).toNat = up at hbelow habove hstep hup ⊢
  generalize i.value * up / step = k at hbelow habove ⊢
  split
  next hlow hhigh =>
    -- Otherwise both ends lie between the two points.
    have hlow' : k * step ≤ i.low * up := by
      by_contra hlt
      rw [within_of_lt (Nat.not_le.mp hlt)] at hlow
      cases hlow
    have hhigh' : i.high * up ≤ (k + 1) * step := by
      by_contra hlt
      rw [within_of_lt (Nat.not_le.mp hlt)] at hhigh
      cases hhigh
    rw [point_le_iff hup hstep] at hlow'
    rw [le_point_iff hup hstep] at hhigh'
    push_cast at hhigh'
    linarith
  next => rfl
  next => rfl
  next =>
    split
    · rfl
    · split
      · rfl
      · cases tie <;> rfl

/-- The search ends in the interval, if its last grid is fine enough. It goes from coarse grids to
finer ones and ends at the first that has a point. -/
theorem search_holds (hi : i.IsProper) {more : ℕ}
    (hfine : (10 : ℚ) ^ (exponent - more) * i.unit < i.high - i.low) :
    i.Holds (i.search tie (more + 1) exponent).value := by
  induction more generalizing exponent with
  | zero =>
    rw [Int.natCast_zero, sub_zero] at hfine
    have hsome : (i.onGrid? tie exponent).isSome = true := onGrid?_isSome hi hfine
    obtain ⟨n, hn⟩ := Option.isSome_iff_exists.mp hsome
    rw [search, hn]
    exact holds_of_onGrid? hi hn
  | succ more ih =>
    rw [search]
    split
    next n hn => exact holds_of_onGrid? hi hn
    next =>
      apply ih
      rw [show exponent - 1 - (more : ℤ) = exponent - (more + 1 : ℕ) by push_cast; ring]
      exact hfine

/-! ## The interval of a number -/

section Parts

variable {p : Parts}

/-- The unit of the numerators is positive, so it can be divided out. -/
theorem unit_pos (p : Parts) : 0 < (ofParts p).unit := Nat.pow_pos (by decide)

/-- The unit of the numerators, which is a quarter of that of the mantissa. -/
theorem scale_eq (p : Parts) :
    ((Nat.pow 2 (p.exponent - 2).toNat : ℕ) : ℚ) = 2 ^ p.exponent / 4 * (ofParts p).unit := by
  rw [pow_toNat 2 (by decide) (p.exponent - 2), zpow_sub₀ (by norm_num)]
  norm_num [ofParts]

/-- The value of a number is inside its interval: above the middle to the number below it, and below
the middle to the one above it. -/
theorem isProper_ofParts (hpos : 0 < p.mantissa) : (ofParts p).IsProper := by
  have hscale : 0 < Nat.pow 2 (p.exponent - 2).toNat := Nat.pow_pos (by decide)
  refine ⟨?_, ?_, unit_pos p⟩
  · apply Nat.mul_lt_mul_of_pos_right _ hscale
    split <;> omega
  · exact Nat.mul_lt_mul_of_pos_right (by omega) hscale

theorem value_ofParts (p : Parts) :
    ((ofParts p).value : ℚ) = p.mantissa * 2 ^ p.exponent * (ofParts p).unit := by
  rw [show (ofParts p).value = 4 * p.mantissa * Nat.pow 2 (p.exponent - 2).toNat from rfl]
  push_cast
  rw [scale_eq]
  ring

/-- The upper end is the middle to the number above it, which is half a unit of the last digit
away. -/
theorem high_ofParts (p : Parts) :
    ((ofParts p).high : ℚ) = (p.mantissa + 1 / 2) * 2 ^ p.exponent * (ofParts p).unit := by
  rw [show (ofParts p).high = (4 * p.mantissa + 2) * Nat.pow 2 (p.exponent - 2).toNat from rfl]
  push_cast
  rw [scale_eq]
  ring

/-- The lower end is the middle to the number below it. Below a power of two that is nearer, since
the numbers there have one binary digit more behind the point. -/
theorem low_ofParts (hpos : 0 < p.mantissa) :
    ((ofParts p).low : ℚ) =
      (p.mantissa - below p.mantissa p.exponent) * 2 ^ p.exponent * (ofParts p).unit := by
  obtain ⟨k, hk, hle, hlow⟩ : ∃ k : ℕ, below p.mantissa p.exponent = k / 4 ∧ k ≤ 4 * p.mantissa ∧
      (ofParts p).low = (4 * p.mantissa - k) * Nat.pow 2 (p.exponent - 2).toNat := by
    refine ⟨_, ?_, ?_, rfl⟩
    · by_cases hleading : p.mantissa = leadingBit ∧ -1074 < p.exponent
      · rw [below, if_pos hleading, if_pos (show p.mantissa = 2 ^ 52 ∧ _ from hleading)]
        norm_num
      · rw [below, if_neg hleading, if_neg (show ¬(p.mantissa = 2 ^ 52 ∧ _) from hleading)]
        norm_num
    · split <;> omega
  rw [hlow, hk, Nat.cast_mul, Nat.cast_sub hle, scale_eq]
  push_cast
  ring

/-- **What the interval of a number holds is near the number.** The ends belong to it where the
mantissa is even, which is where rounding takes the middle for this number. -/
theorem Holds.isNear {x : ℚ} (hpos : 0 < p.mantissa) (h : (ofParts p).Holds x) :
    IsNear p.mantissa p.exponent x := by
  have hunit : (0 : ℚ) < (ofParts p).unit := by exact_mod_cast unit_pos p
  have hscale : (0 : ℚ) < 2 ^ p.exponent := by positivity
  obtain ⟨hlow, hhigh, hinside⟩ := h
  rw [low_ofParts hpos] at hlow hinside
  rw [high_ofParts] at hhigh hinside
  refine ⟨?_, ?_, fun hodd => ?_⟩
  · rw [le_div_iff₀ hscale]
    exact le_of_mul_le_mul_right hlow hunit
  · rw [div_le_iff₀ hscale]
    exact le_of_mul_le_mul_right hhigh hunit
  · have hopen : (ofParts p).closed = false := by simp [ofParts, hodd]
    have hhalf : below p.mantissa p.exponent = 1 / 2 := if_neg fun h => by
      rw [h.1] at hodd
      cases hodd
    obtain ⟨hlow', hhigh'⟩ := hinside hopen
    rw [hhalf] at hlow'
    rw [lt_div_iff₀ hscale, div_lt_iff₀ hscale]
    exact ⟨lt_of_mul_lt_mul_right hlow' hunit.le, lt_of_mul_lt_mul_right hhigh' hunit.le⟩

/-- The interval of a number is wider than one of its seventeenth digits: a mantissa is less than `2
^ 53`, which is below `10 ^ 16`, and it is `2 ^ 52` where the interval is narrower. -/
theorem width_ofParts (hc : IsCanonical p.mantissa p.exponent) (hpos : 0 < p.mantissa) :
    ((ofParts p).value : ℚ) < ((ofParts p).high - (ofParts p).low) * 10 ^ 16 := by
  have hunit : (0 : ℚ) < 2 ^ p.exponent * (ofParts p).unit :=
    mul_pos (by positivity) (by exact_mod_cast unit_pos p)
  have hmantissa : (p.mantissa : ℚ) < (1 / 2 + below p.mantissa p.exponent) * 10 ^ 16 := by
    unfold below
    split
    next hleading =>
      rw [hleading.1]
      norm_num
    next =>
      have hlt : (p.mantissa : ℚ) < 2 ^ 53 := by exact_mod_cast hc.lt
      linarith
  rw [value_ofParts, high_ofParts, low_ofParts hpos]
  calc (p.mantissa : ℚ) * 2 ^ p.exponent * (ofParts p).unit
      = p.mantissa * (2 ^ p.exponent * (ofParts p).unit) := mul_assoc _ _ _
    _ < (1 / 2 + below p.mantissa p.exponent) * 10 ^ 16 * (2 ^ p.exponent * (ofParts p).unit) :=
        mul_lt_mul_of_pos_right hmantissa hunit
    _ = _ := by ring

end Parts

end Interval

/-- **The shortest decimal of a number is near the number.** The search has seventeen grids, the
last of which is fine enough for every number, so it ends inside the interval. -/
theorem shortest_isNear (tie : Tie) {p : Parts} (hc : IsCanonical p.mantissa p.exponent)
    (hpos : 0 < p.mantissa) : IsNear p.mantissa p.exponent (shortest tie p).value := by
  have hi := Interval.isProper_ofParts hpos
  have hvalue : 0 < (Interval.ofParts p).value := Nat.zero_lt_of_lt hi.low
  have hdigit := magnitude_le hvalue hi.unit
  have hfine : (10 : ℚ) ^ (magnitude (Interval.ofParts p).value (Interval.ofParts p).unit - 1 -
        (16 : ℕ)) * (Interval.ofParts p).unit <
      (Interval.ofParts p).high - (Interval.ofParts p).low := by
    have hwidth := Interval.width_ofParts hc hpos
    rw [zpow_sub₀ (by norm_num), zpow_natCast, div_mul_eq_mul_div, div_lt_iff₀ (by norm_num)]
    exact hdigit.trans_lt hwidth
  rw [shortest, if_neg hpos.ne', stripZeros_value]
  exact (Interval.search_holds hi hfine).isNear hpos

end PhasePortrait.Decimal
