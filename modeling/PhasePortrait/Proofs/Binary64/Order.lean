import PhasePortrait.Proofs.Binary64.Rounding

/-!
# The order of numbers

Finite numbers compare as their exact values do (`le_iff_value`), whatever their signs. No rounding
carries a value across a number, so what holds of the values of a sum, a difference or a product
holds of the numbers, as far as it is a comparison: **a sum is not less than a number** to which
something is added that is not below zero (`not_add_lt`). That includes sums that are too large for
a number, and what is not a number at all, which is not below anything.
-/

namespace PhasePortrait.Binary64

open Float.Model (UnpackedFloat Format totalExponent)
open Float.Model.UnpackedFloat

/-! ## Values -/

section Values

/-- The exact value of a number; what is not finite has none, and zero is taken. -/
def valueOf : UnpackedFloat → ℚ
  | .finite sign m e _ => (sign.apply m : ℤ) * 2 ^ e
  | .zero _ | .infinity _ | .notANumber => 0

/-- The exact value of a finite number. -/
def value (x : Float) : ℚ := valueOf x.toModel.unpack

variable {m m' : Nat} {e e' : ℤ}

/-- A number of a larger exponent has a larger value: its mantissa has all of its digits, since its
exponent is not the least one. -/
theorem IsCanonical.value_lt (h : IsCanonical m e) (h' : IsCanonical m' e') (hlt : e < e') :
    (m : ℚ) * 2 ^ e < m' * 2 ^ e' := by
  have hm : (m : ℚ) < 2 ^ (53 : ℤ) := by exact_mod_cast h.lt
  have hm' : (2 : ℚ) ^ (52 : ℤ) ≤ m' := by
    exact_mod_cast h'.full.resolve_right (by have := h.low; omega)
  calc (m : ℚ) * 2 ^ e < 2 ^ (53 : ℤ) * 2 ^ e := mul_lt_mul_of_pos_right hm (by positivity)
    _ = 2 ^ (53 + e) := (zpow_add₀ two_ne_zero _ _).symm
    _ ≤ 2 ^ (52 + e') := two_zpow_le.mpr (by omega)
    _ = 2 ^ (52 : ℤ) * 2 ^ e' := zpow_add₀ two_ne_zero _ _
    _ ≤ m' * 2 ^ e' := mul_le_mul_of_nonneg_right hm' (by positivity)

/-- **Canonical forms compare as their values do**: by the exponent first. This is what makes the
order of numbers one of whole numbers. -/
theorem IsCanonical.value_le_iff (h : IsCanonical m e) (h' : IsCanonical m' e') :
    (m : ℚ) * 2 ^ e ≤ m' * 2 ^ e' ↔ e < e' ∨ e = e' ∧ m ≤ m' := by
  rcases lt_trichotomy e e' with hlt | rfl | hgt
  · exact ⟨fun _ => .inl hlt, fun _ => (h.value_lt h' hlt).le⟩
  · rw [mul_le_mul_iff_left₀ (by positivity), Nat.cast_le]
    omega
  · refine ⟨fun hle => absurd hle (h'.value_lt h hgt).not_ge, ?_⟩
    rintro (hlt | ⟨rfl, -⟩) <;> omega

end Values

section Order

variable {m m' : Nat} {e e' : ℤ} {hm : 0 < m} {hm' : 0 < m'} {x y : Float}

/-- Of two numbers below zero, the one of the larger magnitude is smaller. -/
theorem negative_le_negative :
    (UnpackedFloat.finite .negative m e hm).le (.finite .negative m' e' hm') =
      (UnpackedFloat.finite .positive m' e' hm').le (.finite .positive m e hm) := by
  show ((compare e e').then (compare m m')).swap.isLE = ((compare e' e).then (compare m' m)).isLE
  rw [Ordering.swap_then, ← Std.OrientedCmp.eq_swap, ← Std.OrientedCmp.eq_swap]

/-- Finite numbers compare as their values do. Signs are compared first, and zeros have a place
between them; what is left are two numbers of one sign, where canonical forms decide. -/
theorem le_iff_valueOf {u v : UnpackedFloat} (hu : u.isFinite = true) (hv : v.isFinite = true)
    (hcu : ∀ s m e hm, u = .finite s m e hm → IsCanonical m e)
    (hcv : ∀ s m e hm, v = .finite s m e hm → IsCanonical m e) :
    u.le v = true ↔ valueOf u ≤ valueOf v := by
  have hpos : ∀ {m : Nat} (e : ℤ), 0 < m → (0 : ℚ) < m * 2 ^ e := fun e hm =>
    mul_pos (by exact_mod_cast hm) (by positivity)
  cases u with
  | infinity | notANumber => cases hu
  | zero s =>
    cases v with
    | infinity | notANumber => cases hv
    | zero s' => exact ⟨fun _ => le_rfl, fun _ => rfl⟩
    | finite s' m' e' hm' =>
      have hv' := hpos e' hm'
      cases s' with
      | negative =>
        refine ⟨nofun, fun hle => ?_⟩
        simp [valueOf, Sign.apply] at hle
        linarith
      | positive =>
        refine ⟨fun _ => ?_, fun _ => rfl⟩
        simpa [valueOf, Sign.apply] using hv'.le
  | finite s m e hm =>
    have hu' := hpos e hm
    cases v with
    | infinity | notANumber => cases hv
    | zero s' =>
      cases s with
      | negative =>
        refine ⟨fun _ => ?_, fun _ => rfl⟩
        simpa [valueOf, Sign.apply] using hu'.le
      | positive =>
        refine ⟨nofun, fun hle => ?_⟩
        simp [valueOf, Sign.apply] at hle
        linarith
    | finite s' m' e' hm' =>
      have hv' := hpos e' hm'
      have hc := hcu _ _ _ _ rfl
      have hc' := hcv _ _ _ _ rfl
      cases s with
      | negative =>
        cases s' with
        | negative =>
          rw [negative_le_negative, finite_le_finite, ← hc'.value_le_iff hc]
          simp [valueOf, Sign.apply]
        | positive =>
          refine ⟨fun _ => ?_, fun _ => rfl⟩
          simp only [valueOf, Sign.apply, Int.cast_neg, Int.cast_natCast, neg_mul]
          linarith
      | positive =>
        cases s' with
        | negative =>
          refine ⟨nofun, fun hle => ?_⟩
          simp only [valueOf, Sign.apply, Int.cast_neg, Int.cast_natCast, neg_mul] at hle
          linarith
        | positive =>
          rw [finite_le_finite, ← hc.value_le_iff hc']
          simp [valueOf, Sign.apply]

/-- **Finite numbers compare as their values do.** This is where rationals come in: from here on a
comparison of numbers is arithmetic. -/
theorem le_iff_value (hx : x.isFinite = true) (hy : y.isFinite = true) :
    x ≤ y ↔ value x ≤ value y := by
  rw [le_iff_unpack]
  exact le_iff_valueOf hx hy (fun _ _ _ _ h => isCanonical_of_unpack h)
    fun _ _ _ _ h => isCanonical_of_unpack h

end Order

/-! ## Arithmetic -/

section Arithmetic

variable {x y d : Float}

/-- Below zero: no zero of either sign is, and neither is "not a number". This is not the sign bit,
which a zero may have. -/
def IsBelowZero (u : UnpackedFloat) : Prop := u.lt (.zero .positive) = true

instance (u : UnpackedFloat) : Decidable (IsBelowZero u) := inferInstanceAs (Decidable (_ = true))

/-- Being below zero is looked up in what is unpacked, where the sign is a case of its own. -/
theorem lt_zero_iff (x : Float) : x < 0.0 ↔ IsBelowZero x.toModel.unpack := by
  rw [lt_iff_unpack, unpack_zero]
  rfl

/-- Bits with a positive sign are not those of a number below zero, whatever the other bits are. -/
theorem not_isBelowZero_packComponents (field : BitVec 11) (fraction : BitVec 52) :
    ¬IsBelowZero (UnpackedFloat.unpack Format.binary64
      (packComponents Format.binary64 .positive field fraction)) := by
  simp only [UnpackedFloat.unpack, unpackMantissa_packComponents, unpackExponent_packComponents,
    unpackSign_packComponents, ofBitVec_toBitVec]
  split_ifs <;> exact nofun

/-- Packing keeps the sign, also where it makes an infinity of what is too large. Only a negative
sign bit is below zero, and no case of packing sets it here. -/
theorem not_isBelowZero_pack {u : UnpackedFloat} (h : ¬IsBelowZero u) :
    ¬IsBelowZero (Float.Model.pack u).unpack := by
  cases u with
  | notANumber => decide
  | infinity sign =>
    cases sign with
    | negative => exact absurd rfl h
    | positive => decide
  | zero sign => cases sign <;> decide
  | finite sign m e hm =>
    cases sign with
    | negative => exact absurd rfl h
    | positive =>
      show ¬IsBelowZero (UnpackedFloat.unpack Format.binary64 (UnpackedFloat.pack _ _))
      simp only [UnpackedFloat.pack]
      split_ifs
      · exact not_isBelowZero_packComponents _ _
      · exact not_isBelowZero_packComponents _ _
      · exact not_isBelowZero_packComponents _ _

/-- Rounding what is not below zero does not lead below it, also where it overflows or leaves
nothing. -/
theorem not_isBelowZero_roundWithAccuracy (m : Nat) (e : ℤ) (accuracy : Accuracy) :
    ¬IsBelowZero (roundWithAccuracy Format.binary64 .positive m e accuracy) := by
  unfold roundWithAccuracy
  dsimp only
  split <;> exact nofun

theorem Rounds.not_isBelowZero {v : ℚ} {u : UnpackedFloat} (h : Rounds .positive v u) :
    ¬IsBelowZero u := by
  rcases h.shape with rfl | ⟨m, e, hm, rfl, -⟩ <;> exact nofun

/-- A product of numbers that are not below zero is not below zero. Zeros of either sign are not,
nor is the product of a zero and an infinity, which is not a number. -/
theorem not_mul_lt_zero (hx : ¬x < 0.0) (hy : ¬y < 0.0) : ¬x * y < 0.0 := by
  rw [lt_zero_iff] at hx hy ⊢
  show ¬IsBelowZero (Float.Model.pack (UnpackedFloat.mul Format.binary64 x.toModel.unpack
    y.toModel.unpack)).unpack
  apply not_isBelowZero_pack
  generalize x.toModel.unpack = u at hx ⊢
  generalize y.toModel.unpack = v at hy ⊢
  cases u with
  | notANumber => exact nofun
  | infinity sign =>
    cases sign with
    | negative => exact absurd rfl hx
    | positive =>
      cases v with
      | notANumber | zero => exact nofun
      | infinity sign' | finite sign' =>
        cases sign' with
        | negative => exact absurd rfl hy
        | positive => exact nofun
  | zero sign => cases v <;> exact nofun
  | finite sign =>
    cases sign with
    | negative => exact absurd rfl hx
    | positive =>
      cases v with
      | notANumber | zero => exact nofun
      | infinity sign' =>
        cases sign' with
        | negative => exact absurd rfl hy
        | positive => exact nofun
      | finite sign' =>
        cases sign' with
        | negative => exact absurd rfl hy
        | positive => exact not_isBelowZero_roundWithAccuracy _ _ _

/-- The sum of two numbers is a whole number times a power of two, and is normalised: to zero, or to
the nearest number with the sign of the sum. -/
theorem normalize_rounds (k e : ℤ) :
    (k = 0 ∧ UnpackedFloat.normalize Format.binary64 k e .positive = .zero .positive) ∨
      (0 < k ∧
        Rounds .positive (k * 2 ^ e) (UnpackedFloat.normalize Format.binary64 k e .positive)) ∨
      (k < 0 ∧
        Rounds .negative (-(k * 2 ^ e)) (UnpackedFloat.normalize Format.binary64 k e .positive)) := by
  unfold UnpackedFloat.normalize
  rcases lt_trichotomy k 0 with hk | rfl | hk
  · right; right
    obtain ⟨n, hn⟩ := Int.eq_ofNat_of_zero_le (show 0 ≤ -k by omega)
    have hrounds := round_rounds .negative (m := n) (by omega) e
    rw [compare_lt_iff_lt.mpr hk, hn]
    refine ⟨hk, ?_⟩
    have hk' : (k : ℚ) = -n := by
      have := congrArg (Int.cast (R := ℚ)) hn
      push_cast at this
      linarith
    rw [hk', neg_mul, neg_neg]
    exact hrounds
  · left
    exact ⟨rfl, rfl⟩
  · right; left
    obtain ⟨n, rfl⟩ := Int.eq_ofNat_of_zero_le hk.le
    rw [compare_gt_iff_gt.mpr hk]
    exact ⟨hk, round_rounds .positive (by omega) e⟩

/-- Numbers are added with one exponent. The mantissa of the other one is shifted, and its value
stays. -/
theorem apply_decreaseExponent (sign : Sign) (m : Nat) {e t : ℤ} (ht : t ≤ e) :
    ((sign.apply (decreaseExponent m e t).1 : ℤ) : ℚ) * 2 ^ t = (sign.apply m : ℤ) * 2 ^ e := by
  have hvalue : ((m <<< (e - t).toNat : ℕ) : ℚ) * 2 ^ t = m * 2 ^ e := by
    rw [Nat.shiftLeft_eq]
    push_cast
    rw [mul_assoc, ← zpow_natCast, Int.toNat_of_nonneg (by omega), ← zpow_add₀ two_ne_zero,
      Int.sub_add_cancel]
  cases sign with
  | negative =>
    simp only [decreaseExponent, Sign.apply, Int.cast_neg, Int.cast_natCast, neg_mul, hvalue]
  | positive => simp only [decreaseExponent, Sign.apply, Int.cast_natCast, hvalue]

/-- A sum that is exactly not below zero is not below zero when it is rounded. -/
theorem not_isBelowZero_normalize {k : ℤ} (hk : 0 ≤ k) (e : ℤ) :
    ¬IsBelowZero (UnpackedFloat.normalize Format.binary64 k e .positive) := by
  unfold UnpackedFloat.normalize
  rcases hk.eq_or_lt with rfl | hpos
  · exact nofun
  · rw [compare_gt_iff_gt.mpr hpos]
    exact not_isBelowZero_roundWithAccuracy _ _ _

/-- A difference is not below zero if the first number is not below the second. Its exact value is
not, by the order of values, and rounding keeps the sign. -/
theorem not_sub_lt_zero (hx : x.isFinite = true) (hy : y.isFinite = true) (hle : x ≤ y) :
    ¬y - x < 0.0 := by
  rw [le_iff_value hx hy] at hle
  rw [lt_zero_iff]
  show ¬IsBelowZero (Float.Model.pack (UnpackedFloat.sub Format.binary64 y.toModel.unpack
    x.toModel.unpack)).unpack
  apply not_isBelowZero_pack
  unfold value at hle
  change x.toModel.unpack.isFinite = true at hx
  change y.toModel.unpack.isFinite = true at hy
  generalize x.toModel.unpack = u at hx hle ⊢
  generalize y.toModel.unpack = v at hy hle ⊢
  cases v with
  | infinity | notANumber => cases hy
  | zero s' =>
    cases u with
    | infinity | notANumber => cases hx
    | zero s => cases s <;> cases s' <;> exact nofun
    | finite s m e hm =>
      cases s with
      | negative => exact nofun
      | positive =>
        have hpos : (0 : ℚ) < m * 2 ^ e := mul_pos (by exact_mod_cast hm) (by positivity)
        simp only [valueOf, Sign.apply, Int.cast_natCast] at hle
        linarith
  | finite s' m' e' hm' =>
    cases u with
    | infinity | notANumber => cases hx
    | zero s =>
      cases s' with
      | negative =>
        have hpos : (0 : ℚ) < m' * 2 ^ e' := mul_pos (by exact_mod_cast hm') (by positivity)
        simp only [valueOf, Sign.apply, Int.cast_neg, Int.cast_natCast, neg_mul] at hle
        linarith
      | positive => exact nofun
    | finite s m e hm =>
      have hdiff : (0 : ℚ) ≤ ((s'.apply (decreaseExponent m' e' (min e' e)).1 -
          s.apply (decreaseExponent m e (min e' e)).1 : ℤ) : ℚ) * 2 ^ min e' e := by
        push_cast
        rw [sub_mul, apply_decreaseExponent s' m' (min_le_left _ _),
          apply_decreaseExponent s m (min_le_right _ _)]
        exact sub_nonneg.mpr hle
      have hk := nonneg_of_mul_nonneg_left hdiff (by positivity)
      exact not_isBelowZero_normalize (by exact_mod_cast hk) _

/-- A number that is not below zero, added to a number above zero, does not lead below it. -/
theorem not_lt_of_rounds_positive {m : Nat} {e : ℤ} {hm : 0 < m} {v : ℚ} {u : UnpackedFloat}
    (hc : IsCanonical m e) (hu : Rounds .positive v u) (hle : (m : ℚ) * 2 ^ e ≤ v) :
    ¬(Float.Model.pack u).unpack.lt (.finite .positive m e hm) = true := by
  obtain ⟨n, t, hn, rfl, horder⟩ := hu.ge_of_ge hc hm hle
  rcases hu.unpack_pack with hpack | ⟨-, hpack⟩
  · rw [hpack, finite_lt_finite]
    omega
  · rw [hpack]
    exact nofun

/-- The same below zero: a sum that is at most as far from zero is not less. -/
theorem not_lt_of_rounds_negative {m : Nat} {e : ℤ} {hm : 0 < m} {v : ℚ} {u : UnpackedFloat}
    (hc : IsCanonical m e) (hu : Rounds .negative v u) (hle : v ≤ m * 2 ^ e) :
    ¬(Float.Model.pack u).unpack.lt (.finite .negative m e hm) = true := by
  rcases hu.le_of_le hc hle with rfl | ⟨n, t, hn, rfl, horder⟩
  · exact nofun
  · have hhigh := hc.high
    rcases hu.unpack_pack with hpack | ⟨⟨_, _, _, heq, hlarge⟩, -⟩
    · rw [hpack, finite_lt_iff_not_le, not_not, negative_le_negative, finite_le_finite]
      omega
    · injection heq
      omega

/-- What is not below zero is not less than a number below zero. -/
theorem not_lt_negative {m : Nat} {e : ℤ} {hm : 0 < m} {u : UnpackedFloat} (h : ¬IsBelowZero u) :
    ¬u.lt (.finite .negative m e hm) = true := by
  cases u with
  | infinity sign | finite sign =>
    cases sign with
    | negative => exact absurd rfl h
    | positive => exact nofun
  | zero | notANumber => exact nofun

/-- The sum of a number and one above zero, with the exponent of the smaller of the two. The exact
sum is above the number, and rounding does not lead back across it. Where the number is below zero
the sum may have either sign. -/
theorem not_normalize_lt {s : Sign} {m m' : Nat} {e e' : ℤ} {hm : 0 < m}
    (hc : IsCanonical m e) :
    ¬(Float.Model.pack (UnpackedFloat.normalize Format.binary64
      (s.apply (decreaseExponent m e (min e e')).1 +
        Sign.positive.apply (decreaseExponent m' e' (min e e')).1) (min e e')
      .positive)).unpack.lt (.finite s m e hm) = true := by
  have hsum := apply_decreaseExponent s m (min_le_left e e')
  have hadded := apply_decreaseExponent .positive m' (min_le_right e e')
  generalize (s.apply (decreaseExponent m e (min e e')).1 : ℤ) = k at hsum ⊢
  generalize (Sign.positive.apply (decreaseExponent m' e' (min e e')).1 : ℤ) = k' at hadded ⊢
  have hnonneg : (0 : ℚ) ≤ k' * 2 ^ min e e' := by
    rw [hadded]
    exact mul_nonneg (Nat.cast_nonneg m') (by positivity)
  have htotal : ((k + k' : ℤ) : ℚ) * 2 ^ min e e' =
      (s.apply m : ℤ) * 2 ^ e + k' * 2 ^ min e e' := by
    push_cast
    rw [add_mul, hsum]
  cases s with
  | positive =>
    have hvalue : (m : ℚ) * 2 ^ e ≤ (k + k' : ℤ) * 2 ^ min e e' := by
      rw [htotal]
      simp only [Sign.apply, Int.cast_natCast]
      linarith
    have hk : 0 < k + k' := by
      have hpos : (0 : ℚ) < m * 2 ^ e := mul_pos (by exact_mod_cast hm) (by positivity)
      exact_mod_cast pos_of_mul_pos_left (hpos.trans_le hvalue) (by positivity)
    rcases normalize_rounds (k + k') (min e e') with ⟨hzero, -⟩ | ⟨-, hrounds⟩ | ⟨hneg, -⟩
    · omega
    · exact not_lt_of_rounds_positive hc hrounds hvalue
    · omega
  | negative =>
    have hvalue : -(((k + k' : ℤ) : ℚ) * 2 ^ min e e') ≤ m * 2 ^ e := by
      rw [htotal]
      simp only [Sign.apply, Int.cast_neg, Int.cast_natCast, neg_mul]
      linarith
    rcases Int.lt_or_le (k + k') 0 with hneg | hpos
    · rcases normalize_rounds (k + k') (min e e') with ⟨hzero, -⟩ | ⟨hpos, -⟩ | ⟨-, hrounds⟩
      · omega
      · omega
      · exact not_lt_of_rounds_negative hc hrounds hvalue
    · exact not_lt_negative (not_isBelowZero_pack (not_isBelowZero_normalize hpos _))

/-- **A sum is not less than a number** to which something is added that is not below zero. The
cases that are no sum of two finite numbers other than zero are looked through one by one: there the
sum is one of the two, or no number at all. -/
theorem not_add_lt (hx : x.isFinite = true) (hd : ¬d < 0.0) : ¬x + d < x := by
  rw [lt_zero_iff] at hd
  rw [lt_iff_unpack]
  show ¬(Float.Model.pack (UnpackedFloat.add Format.binary64 x.toModel.unpack
    d.toModel.unpack)).unpack.lt x.toModel.unpack = true
  change x.toModel.unpack.isFinite = true at hx
  have hcanonical : ∀ s m e hm, x.toModel.unpack = .finite s m e hm → IsCanonical m e :=
    fun _ _ _ _ h => isCanonical_of_unpack h
  generalize x.toModel.unpack = u at hx hcanonical ⊢
  generalize d.toModel.unpack = v at hd ⊢
  cases u with
  | infinity | notANumber => cases hx
  | zero s =>
    have hzero : ∀ w : UnpackedFloat, ¬IsBelowZero w → ¬w.lt (.zero s) = true := by
      intro w hw
      cases w with
      | infinity sign | finite sign => cases sign <;> exact hw
      | zero | notANumber => exact hw
    apply hzero
    apply not_isBelowZero_pack
    cases v with
    | zero s' => cases s <;> cases s' <;> exact nofun
    | infinity | notANumber | finite => exact hd
  | finite s m e hm =>
    have hc := hcanonical _ _ _ _ rfl
    cases v with
    | notANumber =>
      have hsum : (Float.Model.pack .notANumber).unpack = .notANumber := rfl
      show ¬(Float.Model.pack .notANumber).unpack.lt (.finite s m e hm) = true
      rw [hsum]
      exact nofun
    | infinity s' =>
      cases s' with
      | negative => exact absurd rfl hd
      | positive =>
        have hsum : (Float.Model.pack (.infinity .positive)).unpack = .infinity .positive := rfl
        show ¬(Float.Model.pack (.infinity .positive)).unpack.lt (.finite s m e hm) = true
        rw [hsum]
        exact nofun
    | zero s' =>
      show ¬(Float.Model.pack (.finite s m e hm)).unpack.lt (.finite s m e hm) = true
      rw [unpack_pack hc, finite_lt_iff_not_le, not_not]
      cases s with
      | negative =>
        rw [negative_le_negative, finite_le_finite]
        exact .inr ⟨rfl, le_rfl⟩
      | positive =>
        rw [finite_le_finite]
        exact .inr ⟨rfl, le_rfl⟩
    | finite s' m' e' hm' =>
      cases s' with
      | negative => exact absurd rfl hd
      | positive => exact not_normalize_lt hc

end Arithmetic

end PhasePortrait.Binary64
