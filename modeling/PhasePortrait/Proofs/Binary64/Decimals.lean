import PhasePortrait.Proofs.Binary64.Order

/-!
# Decimals and whole numbers

A product and a quotient of two numbers above zero are the exact ones, rounded (`mul_rounds`,
`div_rounds`): one mantissa that has all its digits leaves the result as many as it needs. Both ways
of reading a decimal end in such a quotient. The short way divides by a power of ten from a table of
those that are numbers (`isTenTo_powers`), the other one divides the mantissas. So **a decimal is
read as the number nearest to it** (`ofScientific_rounds`), and so is a whole number
(`ofNat_rounds`).

A number above zero is given together with its exact value (`IsPositive`).
-/

namespace PhasePortrait.Binary64

open Float.Model (UnpackedFloat Format totalExponent)
open Float.Model.UnpackedFloat

/-! ## Products and quotients -/

section Quotients

/-- A number is near itself, so it is what its own value is rounded to. -/
theorem IsCanonical.isNear {m : Nat} {e : ℤ} : IsNear m e (m * 2 ^ e) := by
  have hself : (m : ℚ) * 2 ^ e / 2 ^ e = m := mul_div_cancel_right₀ _ (by positivity)
  refine ⟨?_, ?_, fun _ => ⟨?_, ?_⟩⟩ <;> rw [hself]
  · unfold below
    split <;> linarith
  · linarith
  · linarith
  · linarith

/-- Every whole number of at most 53 digits is a number: shifted to the left until it has all 53, it
is a mantissa of canonical form, and the exponent takes the shift back. -/
theorem exists_canonical {n : Nat} (hpos : 0 < n) (hlt : n < 2 ^ 53) :
    ∃ m e, IsCanonical m e ∧ 0 < m ∧ (m : ℚ) * 2 ^ e = n := by
  have hlog : n.log2 < 53 := (Nat.log2_lt hpos.ne').mpr hlt
  have hlog' := log2_shiftLeft hpos (52 - n.log2)
  rw [Nat.add_sub_cancel' (by omega)] at hlog'
  have hm : n <<< (52 - n.log2) ≠ 0 := by
    intro hzero
    rw [hzero, Nat.log2_zero] at hlog'
    omega
  obtain ⟨hlow, hhigh⟩ := (Nat.log2_eq_iff hm).mp hlog'
  refine ⟨n <<< (52 - n.log2), (n.log2 : ℤ) - 52, ⟨hhigh, by omega, by omega, .inl hlow⟩,
    Nat.pos_of_ne_zero hm, ?_⟩
  rw [Nat.shiftLeft_eq]
  push_cast
  rw [mul_assoc, ← zpow_natCast, ← zpow_add₀ two_ne_zero, Nat.cast_sub (by omega)]
  simp

/-- The product of two mantissas is exact. It has to have as many digits as the result, or the
digits that are missing would be made up. -/
theorem mul_rounds (sign : Sign) {m m' : Nat} {e e' : ℤ}
    (ht : e + e' ≤ max (((m * m').log2 : ℤ) + (e + e') - 52) (-1074)) :
    Rounds sign (m * 2 ^ e * (m' * 2 ^ e'))
      (roundWithAccuracy Format.binary64 sign (m * m') (e + e') .exact) := by
  have hrounds := roundWithAccuracy_rounds sign (Stands.exact (m * m')) ht
  rw [zpow_add₀ two_ne_zero] at hrounds
  push_cast at hrounds
  rwa [mul_mul_mul_comm] at hrounds

/-- The quotient of two mantissas has as many digits as the number. The first mantissa is shifted so
far beforehand that at least 53 digits are left, or that the unit is the least one; what the
division drops is told by the accuracy. -/
theorem div_rounds (sign : Sign) {m m' : Nat} (hm : 0 < m) (hm' : 0 < m') (e e' : ℤ) :
    Rounds sign (m * 2 ^ e / (m' * 2 ^ e'))
      (roundWithAccuracy Format.binary64 sign (divCore Format.binary64 m e m' e').1
        (divCore Format.binary64 m e m' e').2.1 (divCore Format.binary64 m e m' e').2.2) := by
  obtain ⟨t, ht⟩ : ∃ t, t = min (e - e')
      (Format.binary64.targetExponent (totalExponent m e - totalExponent m' e')) := ⟨_, rfl⟩
  obtain ⟨k, hk⟩ : ∃ k, k = (e - e' - t).toNat := ⟨_, rfl⟩
  have hdiv : divCore Format.binary64 m e m' e' =
      ((m <<< k) / m', t, accuracyOfFraction ((m <<< k) % m') m') := by
    rw [divCore, ← ht, ← hk]
  rw [Format.targetExponent, totalExponent, totalExponent, mantissaBits_eq, minExponent_eq] at ht
  have hdigits : t ≤ max ((((m <<< k) / m').log2 : ℤ) + t - 52) (-1074) := by
    by_cases hsmall : t ≤ -1074
    · exact hsmall.trans (le_max_right _ _)
    · have hquotient : 2 ^ 52 ≤ (m <<< k) / m' := by
        rw [Nat.le_div_iff_mul_le hm', Nat.shiftLeft_eq]
        calc 2 ^ 52 * m' ≤ 2 ^ 52 * 2 ^ (m'.log2 + 1) := Nat.mul_le_mul_left _ Nat.lt_log2_self.le
          _ = 2 ^ (52 + (m'.log2 + 1)) := (Nat.pow_add _ _ _).symm
          _ ≤ 2 ^ (m.log2 + k) := Nat.pow_le_pow_right (by decide) (by omega)
          _ = 2 ^ m.log2 * 2 ^ k := Nat.pow_add _ _ _
          _ ≤ m * 2 ^ k := Nat.mul_le_mul_right _ (Nat.log2_self_le hm.ne')
      have hlog := (Nat.le_log2 (by omega)).mpr hquotient
      omega
  have hrounds := roundWithAccuracy_rounds sign (Stands.quotient (m <<< k) hm') hdigits
  have hvalue : ((m <<< k : ℕ) : ℚ) / m' * 2 ^ t = m * 2 ^ e / (m' * 2 ^ e') := by
    have hm'' : (m' : ℚ) ≠ 0 := by exact_mod_cast hm'.ne'
    have hpow : (2 : ℚ) ^ k * 2 ^ t * 2 ^ e' = 2 ^ e := by
      rw [← zpow_natCast, ← zpow_add₀ two_ne_zero, ← zpow_add₀ two_ne_zero]
      congr 1
      omega
    rw [Nat.shiftLeft_eq, div_mul_eq_mul_div, div_eq_div_iff hm'' (by positivity)]
    push_cast
    rw [← hpow]
    ring
  rw [hvalue] at hrounds
  rw [hdiv]
  exact hrounds

end Quotients

/-! ## Decimals -/

section Decimals

/-- A finite number above zero with its value. Products and quotients of such numbers are followed
through this, so the parts need not be named again. -/
def IsPositive (u : UnpackedFloat) (v : ℚ) : Prop :=
  ∃ m e hm, u = .finite .positive m e hm ∧ IsCanonical m e ∧ (m : ℚ) * 2 ^ e = v

/-- Whether a number is a power of ten, in whole numbers. -/
def isTenTo (x : Float) (k : Nat) : Bool :=
  match x.toModel.unpack with
  | .finite .positive m e _ => decide (-52 ≤ e ∧ m * 2 ^ (e + 52).toNat = 10 ^ k * 2 ^ 52)
  | _ => false

/-- The table has the powers of ten that are numbers. It is looked through entry by entry, each in
whole numbers. -/
theorem isTenTo_powers : ∀ k (_ : k < Float.exactlyRepresentablePowersOfTen.size),
    isTenTo Float.exactlyRepresentablePowersOfTen[k] k = true := by
  decide +kernel

theorem IsPositive.of_isTenTo {x : Float} {k : Nat} (h : isTenTo x k = true) :
    IsPositive x.toModel.unpack (10 ^ k) := by
  unfold isTenTo at h
  split at h
  next m e hm heq =>
    obtain ⟨he, hvalue⟩ := of_decide_eq_true h
    refine ⟨m, e, hm, heq, isCanonical_of_unpack heq, ?_⟩
    have hcast : (m : ℚ) * 2 ^ (e + 52).toNat = 10 ^ k * 2 ^ 52 := by exact_mod_cast hvalue
    rw [← zpow_natCast, Int.toNat_of_nonneg (by omega), zpow_add₀ two_ne_zero, ← mul_assoc] at hcast
    exact mul_right_cancel₀ (by positivity) hcast
  next => cases h

/-- The quotient of two numbers is the quotient of their values, rounded. -/
theorem IsPositive.div_rounds {x y : Float} {v w : ℚ} (hx : IsPositive x.toModel.unpack v)
    (hy : IsPositive y.toModel.unpack w) :
    ∃ u, (x / y).toModel = Float.Model.pack u ∧ Rounds .positive (v / w) u := by
  obtain ⟨m, e, hm, hx, -, rfl⟩ := hx
  obtain ⟨m', e', hm', hy, -, rfl⟩ := hy
  refine ⟨UnpackedFloat.div Format.binary64 x.toModel.unpack y.toModel.unpack, rfl, ?_⟩
  rw [hx, hy]
  exact Binary64.div_rounds .positive hm hm' e e'

/-- The product of two numbers is the product of their values, rounded. It is enough that one of the
two mantissas has all its digits; if none has, the product is far below the smallest number. -/
theorem IsPositive.mul_rounds {x y : Float} {v w : ℚ} (hx : IsPositive x.toModel.unpack v)
    (hy : IsPositive y.toModel.unpack w) :
    ∃ u, (x * y).toModel = Float.Model.pack u ∧ Rounds .positive (v * w) u := by
  obtain ⟨m, e, hm, hx, hc, rfl⟩ := hx
  obtain ⟨m', e', hm', hy, hc', rfl⟩ := hy
  refine ⟨UnpackedFloat.mul Format.binary64 x.toModel.unpack y.toModel.unpack, rfl, ?_⟩
  rw [hx, hy]
  refine Binary64.mul_rounds .positive ?_
  -- One mantissa with all its digits gives the product as many.
  have hdigits : ∀ k : Nat, 2 ^ 52 ≤ k → 52 ≤ k.log2 := fun k hk => (Nat.le_log2 (by omega)).mpr hk
  have hproduct := hdigits (m * m')
  have hlow := hc.low
  have hlow' := hc'.low
  rcases hc.full with hfull | hsmall
  · have := hproduct (hfull.trans (Nat.le_mul_of_pos_right m hm'))
    omega
  · rcases hc'.full with hfull' | hsmall'
    · have := hproduct (hfull'.trans (Nat.le_mul_of_pos_left m' hm))
      omega
    · omega

/-- A value that is a number is rounded to itself. -/
theorem isPositive_of_rounds {v : ℚ} {u : UnpackedFloat} (h : Rounds .positive v u) {m : Nat}
    {e : ℤ} (hc : IsCanonical m e) (hpos : 0 < m) (hv : (m : ℚ) * 2 ^ e = v) :
    IsPositive (Float.Model.pack u).unpack v := by
  obtain rfl := h.unique ((hv ▸ IsCanonical.isNear).rounds hc hpos .positive)
  exact ⟨m, e, hpos, unpack_pack hc, hc, hv⟩

/-- A word of at most 53 digits is the number of its value, with nothing rounded: the value has the
form of a number already, and rounding has one answer. -/
theorem isPositive_toFloat {n : Nat} (hpos : 0 < n) (hlt : n < 2 ^ 53) :
    IsPositive n.toUInt64.toFloat.toModel.unpack n := by
  obtain ⟨m, e, hc, hm, hvalue⟩ := exists_canonical hpos hlt
  have hword : n.toUInt64.toNat = n := by
    rw [Nat.toUInt64, UInt64.toNat_ofNat', Nat.mod_eq_of_lt (by omega)]
  have hrounds := round_rounds .positive hpos 0
  rw [zpow_zero, mul_one] at hrounds
  have hmodel : n.toUInt64.toFloat.toModel =
      Float.Model.pack (UnpackedFloat.round Format.binary64 .positive n 0) := by
    show Float.Model.pack (UnpackedFloat.normalize Format.binary64 (n.toUInt64.toNat : ℤ) 0
      .positive) = _
    rw [hword, UnpackedFloat.normalize, compare_gt_iff_gt.mpr (by exact_mod_cast hpos)]
    rfl
  rw [hmodel]
  exact isPositive_of_rounds hrounds hc hm hvalue

/-- The long way of reading a decimal divides by the power of ten as a whole number, with enough
digits in front for the quotient to have all of its own. -/
theorem unpackedOfScientific_rounds {n : Nat} (hpos : 0 < n) {k : Nat} (hk : k ≤ 2048 + n.log2) :
    Rounds .positive (n / 10 ^ k)
      (UnpackedFloat.ofScientific Format.binary64 n (Int.negOfNat k)) := by
  have hbits : (2 : ℤ) ^ Format.binary64.exponentBits = 2048 := by decide
  have hnegative : Int.negOfNat k = -(k : ℤ) := Int.negOfNat_eq
  unfold UnpackedFloat.ofScientific
  rw [hbits, hnegative, dif_neg hpos.ne', if_neg (by omega), if_neg (by omega)]
  split
  next hzero =>
    obtain rfl : k = 0 := by omega
    have hlog := log2_shiftLeft hpos 53
    have hrounds : Rounds .positive ((n <<< 53 : ℕ) * 2 ^ (-53 : ℤ) * ((1 : ℕ) * 2 ^ (0 : ℤ))) _ :=
      mul_rounds .positive (by
        rw [Nat.mul_one, hlog]
        omega)
    have hvalue : ((n <<< 53 : ℕ) : ℚ) * 2 ^ (-53 : ℤ) * ((1 : ℕ) * 2 ^ (0 : ℤ)) = n / 10 ^ 0 := by
      rw [Nat.shiftLeft_eq]
      push_cast
      field_simp
      norm_num
    rw [hvalue] at hrounds
    exact hrounds
  next hlarge =>
    have hrounds := div_rounds .positive hpos (Nat.pow_pos (n := k) (show 0 < 10 by decide)) 0 0
    have hvalue : (n : ℚ) * 2 ^ (0 : ℤ) / ((10 ^ k : ℕ) * 2 ^ (0 : ℤ)) = n / 10 ^ k := by
      push_cast
      simp
    rw [hvalue] at hrounds
    have hexponent : (-(-(k : ℤ))).toNat = k := by omega
    simp only [hexponent]
    exact hrounds

/-- **A decimal is read as the number nearest to it**, unless it has too many places for any. The
short way of reading is taken where digits and places are few, and both ways end in a quotient. -/
theorem ofScientific_rounds {n : Nat} (hpos : 0 < n) {k : Nat} (hk : k ≤ 2048 + n.log2) :
    ∃ u, (OfScientific.ofScientific n true k : Float).toModel = Float.Model.pack u ∧
      Rounds .positive (n / 10 ^ k) u := by
  show ∃ u, (Float.ofScientific n true k).toModel = Float.Model.pack u ∧ _
  unfold Float.ofScientific
  split
  next hsmall =>
    have hten := IsPositive.of_isTenTo (isTenTo_powers k (Nat.lt_succ_of_le hsmall.2))
    exact (isPositive_toFloat hpos hsmall.1).div_rounds hten
  next => exact ⟨_, rfl, unpackedOfScientific_rounds hpos hk⟩

end Decimals

/-! ## Whole numbers -/

section Naturals

variable {n : Nat} {x : Float} {v : ℚ}

/-- **A whole number is the number nearest to it.** It is read as a decimal without places, so this
is a case of reading decimals. -/
theorem ofNat_rounds (hpos : 0 < n) :
    ∃ u, (Float.ofNat n).toModel = Float.Model.pack u ∧ Rounds .positive n u := by
  show ∃ u, (Float.ofScientific n false 0).toModel = Float.Model.pack u ∧ _
  unfold Float.ofScientific
  split
  next hsmall =>
    have hone := IsPositive.of_isTenTo (isTenTo_powers 0 (by decide))
    have hproduct := (isPositive_toFloat hpos hsmall.1).mul_rounds hone
    rw [pow_zero, mul_one] at hproduct
    exact hproduct
  next =>
    have hrounds := unpackedOfScientific_rounds hpos (Nat.zero_le (2048 + n.log2))
    rw [pow_zero, div_one] at hrounds
    exact ⟨_, rfl, hrounds⟩

theorem not_ofNat_lt_zero (n : Nat) : ¬Float.ofNat n < 0.0 := by
  rcases Nat.eq_zero_or_pos n with rfl | hpos
  · decide
  · obtain ⟨u, hu, hrounds⟩ := ofNat_rounds hpos
    rw [lt_zero_iff, hu]
    exact not_isBelowZero_pack hrounds.not_isBelowZero

theorem IsPositive.isFinite (h : IsPositive x.toModel.unpack v) : x.isFinite = true := by
  obtain ⟨m, e, hm, hx, -⟩ := h
  show x.toModel.unpack.isFinite = true
  rw [hx]
  rfl

theorem IsPositive.value_eq (h : IsPositive x.toModel.unpack v) : value x = v := by
  obtain ⟨m, e, hm, hx, -, rfl⟩ := h
  rw [value, hx]
  simp [valueOf, Sign.apply]

theorem IsPositive.pos {u : UnpackedFloat} (h : IsPositive u v) : 0 < v := by
  obtain ⟨m, e, hm, -, -, rfl⟩ := h
  exact mul_pos (by exact_mod_cast hm) (by positivity)

/-- The sign is all that a negation changes: the bits are those of the number but for one, so it is
as finite, and its value is the opposite. -/
theorem IsPositive.neg (h : IsPositive x.toModel.unpack v) :
    (-x).isFinite = true ∧ value (-x) = -v := by
  obtain ⟨m, e, hm, hx, hc, rfl⟩ := h
  have hneg : (-x).toModel.unpack = .finite .negative m e hm := by
    show (Float.Model.pack (UnpackedFloat.neg x.toModel.unpack)).unpack = _
    rw [hx]
    exact unpack_pack hc
  refine ⟨?_, ?_⟩
  · show (-x).toModel.unpack.isFinite = true
    rw [hneg]
    rfl
  · rw [value, hneg]
    simp [valueOf, Sign.apply]

/-- A whole number below `2 ^ 64` is a number, or one from `2 ^ 53` on is near it. Both powers are
numbers themselves, and no rounding leads across a number. -/
theorem exists_isPositive_ofNat (hpos : 0 < n) (hlt : n < 2 ^ 64) :
    ∃ v, IsPositive (Float.ofNat n).toModel.unpack v ∧ (v = n ∨ 2 ^ 53 ≤ n ∧ 2 ^ 53 ≤ v) := by
  obtain ⟨u, hu, hrounds⟩ := ofNat_rounds hpos
  rw [hu]
  by_cases hsmall : n < 2 ^ 53
  · obtain ⟨m, e, hc, hm, hvalue⟩ := exists_canonical hpos hsmall
    exact ⟨n, isPositive_of_rounds hrounds hc hm hvalue, .inl rfl⟩
  · have hlow : IsCanonical (2 ^ 52) 1 := ⟨by decide, by decide, by decide, .inl le_rfl⟩
    have hhigh : IsCanonical (2 ^ 52) 12 := ⟨by decide, by decide, by decide, .inl le_rfl⟩
    have hlown : ((2 ^ 52 : ℕ) : ℚ) * 2 ^ (1 : ℤ) ≤ n := by
      have hcast : (2 : ℚ) ^ 53 ≤ n := by exact_mod_cast Nat.not_lt.mp hsmall
      norm_num at hcast ⊢
      exact hcast
    have hhighn : (n : ℚ) ≤ ((2 ^ 52 : ℕ) : ℚ) * 2 ^ (12 : ℤ) := by
      have hcast : (n : ℚ) ≤ 2 ^ 64 := by exact_mod_cast hlt.le
      norm_num at hcast ⊢
      exact hcast
    obtain ⟨m, t, hm, rfl, hge⟩ := hrounds.ge_of_ge hlow (by decide) hlown
    have hle : t ≤ 12 := by
      rcases hrounds.le_of_le hhigh hhighn with hzero | ⟨m', t', hm', heq, hle⟩
      · cases hzero
      · injection heq
        omega
    have hc : IsCanonical m t := by
      rcases hrounds.shape with hzero | ⟨m', t', hm', heq, hc⟩
      · cases hzero
      · injection heq with _ hmantissa hexponent
        subst hmantissa hexponent
        exact hc (by omega)
    refine ⟨m * 2 ^ t, ⟨m, t, hm, unpack_pack hc, hc, rfl⟩, .inr ⟨Nat.not_lt.mp hsmall, ?_⟩⟩
    have hvalue := (hlow.value_le_iff hc).mpr (by omega)
    norm_num at hvalue ⊢
    exact hvalue

end Naturals

end PhasePortrait.Binary64
