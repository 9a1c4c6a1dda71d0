import PhasePortrait.Proofs.Binary64.Rounding

/-!
# Reciprocals

How large one divided by a number is. The quotient is taken of mantissas, with as many digits as a
mantissa has and one more at most, and what is left over only decides whether it is rounded up
(`roundWithAccuracy_cases`).

Powers of two are numbers, and `2 ^ k` and `2 ^ -k` are each the reciprocal of the other. No rounding
carries a quotient across a number, so a reciprocal reaches `2 ^ k` exactly for the numbers up to
`2 ^ -k` (`one_div_lt_iff`). That it stays below for the number right above them is a fact about the
mantissas: the quotient falls short of a power of two by two units (`two_pow_div_lt`), and rounding
can make up for one.
-/

namespace PhasePortrait.Binary64

open Float.Model (UnpackedFloat Format totalExponent)
open Float.Model.UnpackedFloat

/-! ## Rounding -/

section Rounding

variable {m q : Nat} {e t : Int}

theorem roundedMantissa_cases (q : Nat) (accuracy : Accuracy) :
    (ExtendedMantissa.ofMantissaAndAccuracy q accuracy).roundedMantissa = q ∨
      (ExtendedMantissa.ofMantissaAndAccuracy q accuracy).roundedMantissa = q + 1 := by
  cases accuracy with
  | exact => exact .inl rfl
  | inexact relation =>
    cases relation with
    | lt => exact .inl rfl
    | eq =>
      show q + q % 2 = q ∨ q + q % 2 = q + 1
      omega
    | gt => exact .inr rfl

/-- **Rounding** a mantissa that is not too long keeps it or goes on to the next one. If that has
one digit too many, it is the power of two, and the exponent takes the digit. -/
theorem roundWithAccuracy_cases (sign : Sign) (accuracy : Accuracy) (hpos : 0 < q)
    (hle : q ≤ 2 ^ 53) (ht : -1074 ≤ t) :
    ∃ m e hm, roundWithAccuracy Format.binary64 sign q t accuracy = .finite sign m e hm ∧
      (e = t ∧ q ≤ m ∧ m < 2 ^ 53 ∨ e = t + 1 ∧ m = 2 ^ 52 ∧ 2 ^ 53 ≤ q + 1) := by
  unfold roundWithAccuracy
  rcases Nat.lt_or_eq_of_le hle with hlt | rfl
  · rw [shiftToTargetExponent_of_lt accuracy hlt ht]
    dsimp only
    have hrounded := roundedMantissa_cases q accuracy
    generalize (ExtendedMantissa.ofMantissaAndAccuracy q accuracy).roundedMantissa = r at hrounded ⊢
    rcases Nat.lt_or_ge r (2 ^ 53) with hsmall | hlarge
    · rw [shiftToTargetExponent_of_lt .exact hsmall ht]
      have hr : ¬r = 0 := by omega
      exact ⟨r, t, Nat.pos_of_ne_zero hr, dif_neg hr, .inl ⟨rfl, by omega, hsmall⟩⟩
    · obtain rfl : r = 2 ^ 53 := by omega
      obtain ⟨sticky, hshift⟩ := shiftToTargetExponent_two_pow .exact ht
      rw [hshift]
      exact ⟨2 ^ 52, t + 1, by decide, rfl, .inr ⟨rfl, rfl, by omega⟩⟩
  · obtain ⟨sticky, hshift⟩ := shiftToTargetExponent_two_pow accuracy ht
    have hkept : (ExtendedMantissa.mk (2 ^ 52) false sticky).roundedMantissa = 2 ^ 52 := by
      cases sticky <;> rfl
    rw [hshift]
    dsimp only
    rw [hkept, shiftToTargetExponent_of_lt .exact (by decide) (by omega)]
    exact ⟨2 ^ 52, t + 1, by decide, rfl, .inr ⟨rfl, rfl, by omega⟩⟩

end Rounding

/-! ## The quotient of mantissas -/

section Quotient

variable {m : Nat} {e : Int}

/-- The quotient has 53 digits, or it is the power of two after those. The second happens where the
mantissa is a power of two itself. -/
theorem two_pow_div_bounds (hm : 0 < m) :
    2 ^ 52 ≤ 2 ^ (53 + m.log2) / m ∧ 2 ^ (53 + m.log2) / m ≤ 2 ^ 53 := by
  have hlow : 2 ^ m.log2 ≤ m := Nat.log2_self_le hm.ne'
  have hhigh : m < 2 ^ (m.log2 + 1) := Nat.lt_log2_self
  constructor
  · rw [Nat.le_div_iff_mul_le hm]
    calc 2 ^ 52 * m ≤ 2 ^ 52 * 2 ^ (m.log2 + 1) := Nat.mul_le_mul_left _ hhigh.le
      _ = 2 ^ (53 + m.log2) := by rw [← Nat.pow_add]; congr 1; omega
  · apply Nat.div_le_of_le_mul
    calc 2 ^ (53 + m.log2) = 2 ^ m.log2 * 2 ^ 53 := by rw [← Nat.pow_add]; congr 1; omega
      _ ≤ m * 2 ^ 53 := Nat.mul_le_mul_right _ hlow

/-- The quotient by a mantissa above the power of two falls short by two units. -/
theorem two_pow_div_lt (hm : m.log2 = 52) (hlarge : 2 ^ 52 < m) :
    2 ^ (53 + m.log2) / m + 1 < 2 ^ 53 := by
  have hlt : 2 ^ (53 + m.log2) / m < 2 ^ 53 - 1 := by
    rw [hm, Nat.div_lt_iff_lt_mul (by omega)]
    calc 2 ^ (53 + 52) < (2 ^ 53 - 1) * (2 ^ 52 + 1) := by decide
      _ ≤ (2 ^ 53 - 1) * m := Nat.mul_le_mul_left _ hlarge
  omega

theorem divCore_exponent (m : Nat) (e : Int) :
    min (-52 - e)
        (Format.binary64.targetExponent (totalExponent (2 ^ 52) (-52) - totalExponent m e)) =
      min (-52 - e) (max (-(m.log2 : Int) - e - 53) (-1074)) := by
  have hone : totalExponent (2 ^ 52) (-52) = 1 := by decide
  rw [Format.targetExponent, mantissaBits_eq, minExponent_eq, hone, totalExponent]
  omega

/-- One divided by a number that is not among the largest. The numerator is shifted so that 53
digits are left, and the exponent tells by how much. -/
theorem divCore_one (hm : m.log2 ≤ 52) (hhigh : e ≤ 969) :
    divCore Format.binary64 (2 ^ 52) (-52) m e =
      (2 ^ (53 + m.log2) / m, -(m.log2 : Int) - e - 53,
        accuracyOfFraction (2 ^ (53 + m.log2) % m) m) := by
  have hexponent : min (-52 - e) (max (-(m.log2 : Int) - e - 53) (-1074)) =
      -(m.log2 : Int) - e - 53 := by omega
  have hshift : (-52 - e - (-(m.log2 : Int) - e - 53)).toNat = 1 + m.log2 := by omega
  have hpow : 2 ^ 52 <<< (1 + m.log2) = 2 ^ (53 + m.log2) := by
    rw [Nat.shiftLeft_eq, ← Nat.pow_add]
    congr 1
    omega
  rw [divCore, divCore_exponent, hexponent]
  simp only [hshift, hpow]

/-- One divided by one of the largest numbers, where the quotient has fewer digits: the exponent is
stopped at that of the smallest number, and only the bounds of the mantissa are known. -/
theorem divCore_one_of_large (hpos : 0 < m) (hm : m.log2 = 52) (hlow : 969 < e)
    (hhigh : e ≤ 971) :
    ∃ q accuracy, divCore Format.binary64 (2 ^ 52) (-52) m e = (q, -1074, accuracy) ∧ 0 < q ∧
      q ≤ 2 ^ 52 := by
  obtain ⟨hlead, hlt⟩ := (Nat.log2_eq_iff hpos.ne').mp hm
  have hexponent : min (-52 - e) (max (-(m.log2 : Int) - e - 53) (-1074)) = -1074 := by omega
  rw [divCore, divCore_exponent, hexponent]
  refine ⟨_, _, rfl, ?_, ?_⟩
  · rw [Nat.div_pos_iff, Nat.shiftLeft_eq, ← Nat.pow_add]
    exact ⟨hpos, hlt.le.trans (Nat.pow_le_pow_right (by decide) (by omega))⟩
  · apply Nat.div_le_of_le_mul
    rw [Nat.shiftLeft_eq, Nat.mul_comm]
    exact Nat.mul_le_mul_right _ ((Nat.pow_le_pow_right (by decide) (by omega)).trans hlead)

end Quotient

/-! ## The reciprocal -/

section Reciprocal

variable {x : Float} {m : Nat} {e : Int} {hm : 0 < m}

theorem unpack_one_div (hx : x.toModel.unpack = .finite .positive m e hm) {q : Nat} {t : Int}
    {accuracy : Accuracy} (hdiv : divCore Format.binary64 (2 ^ 52) (-52) m e = (q, t, accuracy)) :
    ((1.0 : Float) / x).toModel.unpack =
      (Float.Model.pack (roundWithAccuracy Format.binary64 .positive q t accuracy)).unpack := by
  have hone : (1.0 : Float).toModel.unpack = .finite .positive (2 ^ 52) (-52) (by decide) := rfl
  show (Float.Model.pack (UnpackedFloat.div Format.binary64 (1.0 : Float).toModel.unpack
    x.toModel.unpack)).unpack = _
  rw [hone, hx, UnpackedFloat.div, hdiv]
  rfl

/-- A power of two that is no subnormal number. -/
def IsPower (x : Float) (k : Int) : Prop :=
  ∃ hm, x.toModel.unpack = .finite .positive (2 ^ 52) (k - 52) hm

variable {k : Int}

/-- The reciprocal of a number of at most `2 ^ -k` is infinite or at least `2 ^ k`. The quotient of
the mantissas is large enough before it is rounded, and `2 ^ k` is a number, so rounding does not
lead below it. -/
theorem unpack_one_div_of_le (hlow : 0 ≤ k) (hhigh : k ≤ 900)
    (hx : x.toModel.unpack = .finite .positive m e hm) (h : IsCanonical m e)
    (hsmall : e < -k - 52 ∨ e = -k - 52 ∧ m ≤ 2 ^ 52) :
    ((1.0 : Float) / x).toModel.unpack = .infinity .positive ∨
      ∃ m' e' hm', ((1.0 : Float) / x).toModel.unpack = .finite .positive m' e' hm' ∧
        k - 52 ≤ e' ∧ 2 ^ 52 ≤ m' := by
  have hlog : m.log2 ≤ 52 := Nat.lt_succ_iff.mp ((Nat.log2_lt hm.ne').mpr h.lt)
  obtain ⟨hqlow, hqhigh⟩ := two_pow_div_bounds hm
  -- The quotient has the exponent of `2 ^ k`, or is about to get it: `2 ^ -k` itself.
  have hstart : k - 52 ≤ -(m.log2 : Int) - e - 53 ∨
      -(m.log2 : Int) - e - 53 = k - 53 ∧ 2 ^ (53 + m.log2) / m = 2 ^ 53 := by
    rcases hsmall with hsmall | ⟨rfl, hle⟩
    · exact .inl (by omega)
    · obtain rfl : m = 2 ^ 52 := Nat.le_antisymm hle (h.full.resolve_right (by omega))
      have hdigits : (2 ^ 52 : Nat).log2 = 52 := by decide
      exact .inr ⟨by omega, by decide⟩
  obtain ⟨m', e', hm', hround, hcases⟩ := roundWithAccuracy_cases .positive
    (accuracyOfFraction (2 ^ (53 + m.log2) % m) m) (by omega) hqhigh
    (show -1074 ≤ -(m.log2 : Int) - e - 53 by omega)
  rw [unpack_one_div hx (divCore_one hlog (by omega)), hround]
  by_cases hlarge : 971 < e'
  · exact .inl (unpack_pack_of_large hlarge)
  · have hcanonical : IsCanonical m' e' := ⟨by omega, by omega, by omega, by omega⟩
    exact .inr ⟨m', e', hm', unpack_pack hcanonical, by omega, by omega⟩

/-- The reciprocal of a number above `2 ^ -k` is below `2 ^ k`. A number above a power of two is
above it by a unit of its last digit at least, and that leaves the quotient room for being rounded
up. -/
theorem unpack_one_div_of_lt (hlow : 0 ≤ k) (hhigh : k ≤ 900)
    (hx : x.toModel.unpack = .finite .positive m e hm) (h : IsCanonical m e)
    (hlarge : -k - 52 < e ∨ e = -k - 52 ∧ 2 ^ 52 < m) :
    ∃ m' e' hm', ((1.0 : Float) / x).toModel.unpack = .finite .positive m' e' hm' ∧
      e' < k - 52 ∧ m' < 2 ^ 53 := by
  have hlog : m.log2 = 52 :=
    (Nat.log2_eq_iff hm.ne').mpr ⟨h.full.resolve_right (by omega), h.lt⟩
  have hdiv : ∃ q t accuracy, divCore Format.binary64 (2 ^ 52) (-52) m e = (q, t, accuracy) ∧
      0 < q ∧ q ≤ 2 ^ 53 ∧ -1074 ≤ t ∧ (2 ^ 52 ≤ q ∨ t = -1074) ∧
      (t < k - 53 ∨ t = k - 53 ∧ q + 1 < 2 ^ 53) := by
    by_cases hlargest : 969 < e
    · obtain ⟨q, accuracy, hdiv, hpos, hle⟩ := divCore_one_of_large hm hlog hlargest h.high
      exact ⟨q, _, accuracy, hdiv, hpos, by omega, by omega, .inr rfl, .inl (by omega)⟩
    · obtain ⟨hqlow, hqhigh⟩ := two_pow_div_bounds hm
      refine ⟨_, _, _, divCore_one hlog.le (by omega), by omega, hqhigh, by omega, .inl hqlow, ?_⟩
      rcases hlarge with hlarge | ⟨rfl, hlt⟩
      · exact .inl (by omega)
      · exact .inr ⟨by omega, two_pow_div_lt hlog hlt⟩
  obtain ⟨q, t, accuracy, hdiv, hpos, hqhigh, ht, hfull, hstart⟩ := hdiv
  obtain ⟨m', e', hm', hround, hcases⟩ := roundWithAccuracy_cases .positive accuracy hpos hqhigh ht
  have hcanonical : IsCanonical m' e' := ⟨by omega, by omega, by omega, by omega⟩
  rw [unpack_one_div hx hdiv, hround]
  exact ⟨m', e', hm', unpack_pack hcanonical, by omega, hcanonical.lt⟩

end Reciprocal

variable {x low high : Float} {k : Int}

/-- The two cases of a reciprocal, with the numbers themselves: at most `2 ^ -k` and then infinite
or at least `2 ^ k`, or above and then below. What is told of the parts is enough to go on with. -/
theorem one_div_cases (hk : 0 ≤ k) (hk' : k ≤ 900) (hlow : IsPower low (-k))
    (hfinite : x.isFinite = true) (hpos : (0.0 : Float) < x) :
    (x ≤ low ∧ (((1.0 : Float) / x).toModel.unpack = .infinity .positive ∨
      ∃ m e hm, ((1.0 : Float) / x).toModel.unpack = .finite .positive m e hm ∧ k - 52 ≤ e ∧
        2 ^ 52 ≤ m)) ∨
    (¬x ≤ low ∧ ∃ m e hm, ((1.0 : Float) / x).toModel.unpack = .finite .positive m e hm ∧
      e < k - 52 ∧ m < 2 ^ 53) := by
  obtain ⟨m, e, hm, hx, hcanonical⟩ := parts_of_pos hfinite hpos
  obtain ⟨hone, hbound⟩ := hlow
  rw [le_iff_unpack, hbound, hx, finite_le_finite]
  by_cases hsmall : e < -k - 52 ∨ e = -k - 52 ∧ m ≤ 2 ^ 52
  · exact .inl ⟨hsmall, unpack_one_div_of_le hk hk' hx hcanonical hsmall⟩
  · exact .inr ⟨hsmall, unpack_one_div_of_lt hk hk' hx hcanonical (by omega)⟩

/-- **A reciprocal is below `2 ^ k` where the number is above `2 ^ -k`.** There is nothing in
between: rounding does not move a reciprocal across a power of two. -/
theorem one_div_lt_iff (hk : 0 ≤ k) (hk' : k ≤ 900) (hlow : IsPower low (-k))
    (hhigh : IsPower high k) (hfinite : x.isFinite = true) (hpos : (0.0 : Float) < x) :
    ((1.0 : Float) / x).isFinite = true ∧ (1.0 : Float) / x < high ↔ ¬x ≤ low := by
  obtain ⟨hone, hbound⟩ := hhigh
  have hunpack : ((1.0 : Float) / x).isFinite = ((1.0 : Float) / x).toModel.unpack.isFinite := rfl
  rw [hunpack, lt_iff_unpack, hbound]
  rcases one_div_cases hk hk' hlow hfinite hpos with ⟨hle, hinf | ⟨m, e, hm, hq, he, hlead⟩⟩ |
    ⟨hle, m, e, hm, hq, he, -⟩
  · rw [hinf]
    exact ⟨fun h => absurd h.1 (by decide), fun h => absurd hle h⟩
  · rw [hq, finite_lt_finite]
    exact ⟨fun h => absurd h.2 (by omega), fun h => absurd hle h⟩
  · rw [hq, finite_lt_finite]
    exact ⟨fun _ => hle, fun _ => ⟨rfl, .inl he⟩⟩

theorem zero_le_one_div (hfinite : x.isFinite = true) (hpos : (0.0 : Float) < x) :
    (0.0 : Float) ≤ (1.0 : Float) / x := by
  rw [le_iff_unpack, unpack_zero]
  have hone : IsPower (twoTo (-0)) (-0) := ⟨by decide, rfl⟩
  rcases one_div_cases (Int.le_refl 0) (by decide) hone hfinite hpos with
    ⟨-, hq | ⟨m, e, hm, hq, -⟩⟩ | ⟨-, m, e, hm, hq, -⟩
  all_goals
    rw [hq]
    rfl

end PhasePortrait.Binary64
