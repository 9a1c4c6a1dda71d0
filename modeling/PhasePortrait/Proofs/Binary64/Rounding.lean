import PhasePortrait.Proofs.Binary64

/-!
# Rounding

What rounding does to a value, in terms of the value alone. Digits that are dropped leave two bits
behind, and with them the mantissa still stands for the value (`Stands`). So the number that is found
is the nearest one of the grid around the value (`Rounds`), the even one of two that are as near
(`roundWithAccuracy_rounds`), and a value is rounded to one number only (`Rounds.unique`).

The other way round, **what is near a number is rounded to it** (`IsNear.rounds`): what lies between
the middles on both sides of it.
-/

namespace PhasePortrait.Binary64

open Float.Model (UnpackedFloat Format totalExponent)
open Float.Model.UnpackedFloat

/-! ## Digits that are kept -/

section Digits

variable {m : Nat} {e : Int}

theorem minExponent_eq : Format.binary64.minExponent = -1074 := by decide

/-- The exponent that rounding aims at leaves 53 digits of the mantissa, or fewer near zero. -/
theorem targetExponent_eq (m : Nat) (e : Int) :
    Format.binary64.targetExponent (totalExponent m e) =
      max ((m.log2 : Int) + e - 52) (-1074) := by
  rw [Format.targetExponent, totalExponent, mantissaBits_eq, minExponent_eq]
  omega

/-- Nothing is dropped from a mantissa of at most 53 digits. Its exponent is already as large as the
one that is aimed at. -/
theorem shiftToTargetExponent_of_lt (accuracy : Accuracy) (hm : m < 2 ^ 53) (he : -1074 ≤ e) :
    shiftToTargetExponent Format.binary64 m e accuracy =
      (.ofMantissaAndAccuracy m accuracy, e) := by
  have hlog : m.log2 < 53 := by
    rcases Nat.eq_zero_or_pos m with rfl | hpos
    · decide
    · exact (Nat.log2_lt hpos.ne').mpr hm
  have hshift : (max ((m.log2 : Int) + e - 52) (-1074) - e).toNat = 0 := by omega
  rw [shiftToTargetExponent, targetExponent_eq, shiftToExponent, hshift]
  simp only [Int.natCast_zero, Int.add_zero]
  rfl

/-- One digit is dropped from the power of two that is one digit too long, and it is zero. -/
theorem shiftToTargetExponent_two_pow (accuracy : Accuracy) (he : -1074 ≤ e) :
    ∃ sticky, shiftToTargetExponent Format.binary64 (2 ^ 53) e accuracy =
      (⟨2 ^ 52, false, sticky⟩, e + 1) := by
  have hlog : Nat.log2 (2 ^ 53) = 53 := by decide
  have hshift : (max (((53 : Nat) : Int) + e - 52) (-1074) - e).toNat = 1 := by omega
  rw [shiftToTargetExponent, targetExponent_eq, hlog, shiftToExponent, hshift]
  cases accuracy with
  | exact => exact ⟨_, rfl⟩
  | inexact relation => cases relation <;> exact ⟨_, rfl⟩

end Digits

/-! ## Dropped digits -/

/-- What is left of a value whose last digits were dropped, the first of these included. -/
def kept (em : ExtendedMantissa) : ℚ := em.mantissa + if em.roundBit then 1 / 2 else 0

/-- A mantissa with its two further bits stands for a value: less than the first of the bits was
dropped, and the second one tells whether anything was. -/
def Stands (em : ExtendedMantissa) (w : ℚ) : Prop :=
  if em.stickyBit then kept em < w ∧ w < kept em + 1 / 2 else w = kept em

/-- The whole number is nearest the value, and even if another one is as near. Distances are taken
in the rationals, where the half is exact. -/
def IsNearest (w : ℚ) (n : Nat) : Prop := |w - n| < 1 / 2 ∨ |w - n| = 1 / 2 ∧ n % 2 = 0

namespace Stands

variable {em : ExtendedMantissa} {w : ℚ}

theorem floor (h : Stands em w) : (em.mantissa : ℚ) ≤ w ∧ w < em.mantissa + 1 := by
  obtain ⟨m, half, more⟩ := em
  cases half <;> cases more <;> simp [Stands, kept] at h ⊢ <;> constructor <;> linarith

/-- Rounding up where at least half was dropped, and to even where it was exactly half, finds the
nearest whole number: the two bits tell these cases apart. -/
theorem isNearest (h : Stands em w) : IsNearest w em.roundedMantissa := by
  obtain ⟨m, half, more⟩ := em
  cases half with
  | false =>
    have hsame : (ExtendedMantissa.mk m false more).roundedMantissa = m := by cases more <;> rfl
    left
    rw [hsame, abs_lt]
    cases more <;> simp [Stands, kept] at h <;> constructor <;> linarith
  | true =>
    cases more with
    | false =>
      right
      change |w - (m + m % 2 : ℕ)| = _ ∧ (m + m % 2) % 2 = 0
      simp only [Stands, kept, if_true, Bool.false_eq_true, if_false] at h
      refine ⟨?_, by omega⟩
      rcases Nat.mod_two_eq_zero_or_one m with hm | hm <;> rw [hm, h] <;> push_cast
      · rw [add_zero, add_sub_cancel_left]
        norm_num
      · rw [add_sub_add_left_eq_sub]
        norm_num
    | true =>
      left
      change |w - (m + 1 : ℕ)| < _
      simp only [Stands, kept, if_true] at h
      push_cast
      rw [abs_lt]
      constructor <;> linarith

/-- One digit more is dropped: the bit that tells of a half is now told by that digit, and what it
told before goes into the other bit. -/
theorem shiftRightOne (h : Stands em w) : Stands em.shiftRightOne (w / 2) := by
  obtain ⟨m, half, more⟩ := em
  have hkept : kept (ExtendedMantissa.mk m half more).shiftRightOne = (m : ℚ) / 2 := by
    have hdivision : (m : ℚ) = 2 * (m / 2 : ℕ) + (m % 2 : ℕ) := by
      exact_mod_cast (Nat.div_add_mod m 2).symm
    rcases Nat.mod_two_eq_zero_or_one m with hm | hm <;>
      simp [kept, ExtendedMantissa.shiftRightOne, hm] at hdivision ⊢ <;> linarith
  have hsticky : (ExtendedMantissa.mk m half more).shiftRightOne.stickyBit = (half || more) := rfl
  unfold Stands at h ⊢
  rw [hkept, hsticky]
  cases half <;> cases more <;> simp [kept] at h ⊢ <;> first | linarith | (constructor <;> linarith)

theorem shiftRight (h : Stands em w) (k : Nat) : Stands (em >>> k) (w / 2 ^ k) := by
  induction k with
  | zero =>
    rw [pow_zero, div_one]
    exact h
  | succ k ih =>
    have hnext := ih.shiftRightOne
    rwa [div_div, ← pow_succ] at hnext

/-- A whole mantissa stands for itself. -/
theorem exact (m : Nat) : Stands (.ofMantissaAndAccuracy m .exact) m := by
  simp [Stands, kept, ExtendedMantissa.ofMantissaAndAccuracy]

/-- A quotient stands for the fraction. The accuracy tells the remainder from nothing, from a half
of the divisor and from what is less or more, and these are the cases of the two bits. -/
theorem quotient (num : Nat) {den : Nat} (hden : 0 < den) :
    Stands (.ofMantissaAndAccuracy (num / den) (accuracyOfFraction (num % den) den))
      ((num : ℚ) / den) := by
  have hpos : (0 : ℚ) < den := by exact_mod_cast hden
  have hdivision : (num : ℚ) / den = (num / den : ℕ) + ((num % den : ℕ) : ℚ) / den := by
    rw [div_eq_iff hpos.ne', add_mul, div_mul_cancel₀ _ hpos.ne']
    have hparts : (num : ℚ) = den * (num / den : ℕ) + (num % den : ℕ) := by
      exact_mod_cast (Nat.div_add_mod num den).symm
    linarith
  have hlt : ((num % den : ℕ) : ℚ) < den := by exact_mod_cast Nat.mod_lt num hden
  rw [hdivision]
  generalize num % den = rest at hlt ⊢
  generalize num / den = whole
  unfold accuracyOfFraction
  split
  next hrest =>
    rw [hrest, Nat.cast_zero, zero_div, add_zero]
    exact exact whole
  next hrest =>
    have hrest' : (0 : ℚ) < rest := by exact_mod_cast Nat.pos_of_ne_zero hrest
    have hzero : 0 < (rest : ℚ) / den := div_pos hrest' hpos
    have hone : (rest : ℚ) / den < 1 := (div_lt_one hpos).mpr hlt
    rcases lt_trichotomy (2 * rest) den with h | h | h
    · have hlow : (rest : ℚ) / den < 1 / 2 := by
        have hcast : (2 : ℚ) * rest < den := by exact_mod_cast h
        exact (div_lt_iff₀ hpos).mpr (by linarith)
      rw [compare_lt_iff_lt.mpr h]
      simp only [Stands, kept, ExtendedMantissa.ofMantissaAndAccuracy, if_true, Bool.false_eq_true,
        if_false]
      constructor <;> linarith
    · have hhalf : (rest : ℚ) / den = 1 / 2 := by
        have hcast : (2 : ℚ) * rest = den := by exact_mod_cast h
        exact (div_eq_iff hpos.ne').mpr (by linarith)
      rw [compare_eq_iff_eq.mpr h]
      simp only [Stands, kept, ExtendedMantissa.ofMantissaAndAccuracy, if_true, Bool.false_eq_true,
        if_false, hhalf]
    · have hhigh : 1 / 2 < (rest : ℚ) / den := by
        have hcast : (den : ℚ) < 2 * rest := by exact_mod_cast h
        exact (lt_div_iff₀ hpos).mpr (by linarith)
      rw [compare_gt_iff_gt.mpr h]
      simp only [Stands, kept, ExtendedMantissa.ofMantissaAndAccuracy, if_true]
      constructor <;> linarith

end Stands

namespace IsNearest

variable {w : ℚ} {n k : Nat}

theorem mem (h : IsNearest w n) : (n : ℚ) - 1 / 2 ≤ w ∧ w ≤ n + 1 / 2 := by
  rcases h with h | ⟨h, -⟩
  · exact ⟨by linarith [(abs_lt.mp h).1], by linarith [(abs_lt.mp h).2]⟩
  · have hle := abs_le.mp h.le
    exact ⟨by linarith [hle.1], by linarith [hle.2]⟩

/-- A whole number below the value is not above the nearest one. -/
theorem le_of_le (h : IsNearest w n) (hk : (k : ℚ) ≤ w) : k ≤ n := by
  have hlt : (k : ℚ) < (n + 1 : ℕ) := by
    push_cast
    linarith [h.mem.2]
  exact Nat.lt_succ_iff.mp (by exact_mod_cast hlt)

/-- Nor is a whole number above the value below the nearest one. -/
theorem ge_of_ge (h : IsNearest w n) (hk : w ≤ k) : n ≤ k := by
  have hlt : (n : ℚ) < (k + 1 : ℕ) := by
    push_cast
    linarith [h.mem.1]
  exact Nat.lt_succ_iff.mp (by exact_mod_cast hlt)

/-- Where another number is as near, the distance is half a unit, and the even one was taken. -/
theorem even_of_eq (h : IsNearest w n) (heq : |w - n| = 1 / 2) : n % 2 = 0 := by
  rcases h with h | ⟨-, h⟩
  · exact absurd heq h.ne
  · exact h

/-- Two neighbours are not both even, so there is one nearest number. -/
theorem not_lt (h : IsNearest w n) (hk : IsNearest w k) : ¬n < k := by
  intro hlt
  have hnext : (n : ℚ) + 1 ≤ k := by exact_mod_cast hlt
  have hmiddle : w = n + 1 / 2 := le_antisymm h.mem.2 (by linarith [hk.mem.1])
  have hk' : (k : ℚ) = n + 1 := le_antisymm (by linarith [hk.mem.1]) hnext
  have heven := h.even_of_eq (by rw [hmiddle, add_sub_cancel_left]; norm_num)
  have heven' := hk.even_of_eq (by rw [hmiddle, hk', add_sub_add_left_eq_sub]; norm_num)
  have hsucc : k = n + 1 := by exact_mod_cast hk'
  omega

/-- So there is one nearest number at most, and it may be computed in any way. -/
theorem unique (h : IsNearest w n) (hk : IsNearest w k) : n = k :=
  Nat.le_antisymm (Nat.not_lt.mp (hk.not_lt h)) (Nat.not_lt.mp (h.not_lt hk))

end IsNearest

/-! ## The grid around a value -/

/-- The numbers around a positive value are `2 ^ t` apart: the value has 53 digits before that
place, or the place is that of the smallest numbers. -/
structure IsGrid (v : ℚ) (t : ℤ) : Prop where
  low : -1074 ≤ t
  lt : v < 2 ^ (53 + t)
  /-- Only the smallest values have less than 53 digits. -/
  full : t = -1074 ∨ 2 ^ (52 + t) ≤ v

/-- Powers of two are in the order of their exponents. The base is fixed here to save its side
conditions in every comparison of grids. -/
theorem two_zpow_le {s t : ℤ} : (2 : ℚ) ^ s ≤ 2 ^ t ↔ s ≤ t :=
  zpow_le_zpow_iff_right₀ one_lt_two

theorem two_zpow_lt {s t : ℤ} : (2 : ℚ) ^ s < 2 ^ t ↔ s < t :=
  zpow_lt_zpow_iff_right₀ one_lt_two

namespace IsGrid

variable {v : ℚ} {t : ℤ} {m : Nat} {e : ℤ}

/-- A number that is not above the value has no wider grid. -/
theorem le_of_le (h : IsGrid v t) (hc : IsCanonical m e) (hle : (m : ℚ) * 2 ^ e ≤ v) : e ≤ t := by
  rcases hc.full with hfull | hsmall
  · have hfull' : (2 : ℚ) ^ (52 : ℤ) ≤ m := by exact_mod_cast hfull
    have hlt : (2 : ℚ) ^ (52 + e) < 2 ^ (53 + t) :=
      calc (2 : ℚ) ^ (52 + e) = 2 ^ (52 : ℤ) * 2 ^ e := zpow_add₀ two_ne_zero _ _
        _ ≤ m * 2 ^ e := mul_le_mul_of_nonneg_right hfull' (zpow_pos two_pos e).le
        _ ≤ v := hle
        _ < 2 ^ (53 + t) := h.lt
    rw [two_zpow_lt] at hlt
    omega
  · exact hsmall.trans_le h.low

/-- A number that is not below the value has no narrower grid. -/
theorem ge_of_ge (h : IsGrid v t) (hc : IsCanonical m e) (hle : v ≤ (m : ℚ) * 2 ^ e) : t ≤ e := by
  rcases h.full with rfl | hfull
  · exact hc.low
  · have hlt : (2 : ℚ) ^ (52 + t) < 2 ^ (53 + e) := by
      have hm : (m : ℚ) < 2 ^ (53 : ℤ) := by exact_mod_cast hc.lt
      calc (2 : ℚ) ^ (52 + t) ≤ v := hfull
        _ ≤ m * 2 ^ e := hle
        _ < 2 ^ (53 : ℤ) * 2 ^ e := mul_lt_mul_of_pos_right hm (zpow_pos two_pos e)
        _ = 2 ^ (53 + e) := (zpow_add₀ two_ne_zero _ _).symm
    rw [two_zpow_lt] at hlt
    omega

/-- Two grids around one value are compared by the value lying in the range of either. -/
theorem le_of_isGrid {s : ℤ} (h : IsGrid v t) (h' : IsGrid v s) : t ≤ s := by
  rcases h.full with rfl | hfull
  · exact h'.low
  · have hlt := two_zpow_lt.mp (hfull.trans_lt h'.lt)
    omega

theorem unique {s : ℤ} (h : IsGrid v t) (h' : IsGrid v s) : t = s :=
  le_antisymm (h.le_of_isGrid h') (h'.le_of_isGrid h)

/-- The grid of a mantissa and its digits. The value has as many digits in front of the point as the
mantissa has, since it lies between it and the next one. -/
theorem of_mantissa {q : Nat} {w : ℚ} (hlow : (q : ℚ) ≤ w) (hhigh : w < q + 1)
    (ht : t ≤ max ((q.log2 : ℤ) + t - 52) (-1074)) :
    IsGrid (w * 2 ^ t) (max ((q.log2 : ℤ) + t - 52) (-1074)) := by
  have hpow := zpow_pos (two_pos (α := ℚ)) t
  have hup : w * 2 ^ t < 2 ^ ((q.log2 : ℤ) + 1 + t) := by
    have hq : ((q + 1 : ℕ) : ℚ) ≤ 2 ^ ((q.log2 : ℤ) + 1) := by exact_mod_cast Nat.lt_log2_self
    push_cast at hq
    rw [zpow_add₀ two_ne_zero]
    exact mul_lt_mul_of_pos_right (hhigh.trans_le hq) hpow
  refine ⟨le_max_right _ _, hup.trans_le (two_zpow_le.mpr (by omega)), ?_⟩
  rcases Nat.eq_zero_or_pos q with rfl | hq
  · rw [Nat.log2_zero] at ht ⊢
    omega
  · rcases le_total ((q.log2 : ℤ) + t - 52) (-1074) with hsmall | hlarge
    · exact .inl (max_eq_right hsmall)
    · right
      have hself : (2 : ℚ) ^ (q.log2 : ℤ) ≤ q := by exact_mod_cast Nat.log2_self_le hq.ne'
      rw [max_eq_left hlarge, show 52 + ((q.log2 : ℤ) + t - 52) = q.log2 + t by ring,
        zpow_add₀ two_ne_zero]
      exact mul_le_mul_of_nonneg_right (hself.trans hlow) hpow.le

end IsGrid

/-! ## Rounding -/

/-- A mantissa of at most 53 digits as a number: the power of two that is one digit too long is
carried over to the exponent. -/
def carried (sign : Sign) (n : Nat) (t : ℤ) : UnpackedFloat :=
  if h : n = 0 then .zero sign
  else if n < 2 ^ 53 then .finite sign n t (Nat.pos_of_ne_zero h)
  else .finite sign (2 ^ 52) (t + 1) (by decide)

/-- A number is the value rounded: the nearest one of the grid around it. This says nothing of how
it was found, so results of different computations can be compared by it. -/
def Rounds (sign : Sign) (v : ℚ) (u : UnpackedFloat) : Prop :=
  ∃ t n, IsGrid v t ∧ IsNearest (v / 2 ^ t) n ∧ u = carried sign n t

/-- **Rounding** finds the nearest number, if the mantissa has as many digits as the number.
Shifting to the exponent that is aimed at keeps what the mantissa stands for; the bits then decide
between two neighbours, and one digit too many is carried. -/
theorem roundWithAccuracy_rounds (sign : Sign) {q : Nat} {t : ℤ} {accuracy : Accuracy} {w : ℚ}
    (h : Stands (.ofMantissaAndAccuracy q accuracy) w)
    (ht : t ≤ max ((q.log2 : ℤ) + t - 52) (-1074)) :
    Rounds sign (w * 2 ^ t) (roundWithAccuracy Format.binary64 sign q t accuracy) := by
  have hmantissa : (ExtendedMantissa.ofMantissaAndAccuracy q accuracy).mantissa = q := by
    cases accuracy with
    | exact => rfl
    | inexact relation => cases relation <;> rfl
  have hgrid := IsGrid.of_mantissa (hmantissa ▸ h.floor.1) (hmantissa ▸ h.floor.2) ht
  have hshift : shiftToTargetExponent Format.binary64 q t accuracy =
      (ExtendedMantissa.ofMantissaAndAccuracy q accuracy >>>
          (max ((q.log2 : ℤ) + t - 52) (-1074) - t).toNat,
        max ((q.log2 : ℤ) + t - 52) (-1074)) := by
    rw [shiftToTargetExponent, targetExponent_eq, shiftToExponent, Prod.mk.injEq]
    exact ⟨rfl, by omega⟩
  have hstands := h.shiftRight (max ((q.log2 : ℤ) + t - 52) (-1074) - t).toNat
  generalize max ((q.log2 : ℤ) + t - 52) (-1074) = s at ht hgrid hshift hstands
  have hscaled : w / 2 ^ (s - t).toNat = w * 2 ^ t / 2 ^ s := by
    rw [← zpow_natCast, Int.toNat_of_nonneg (by omega), div_eq_div_iff (by positivity)
      (by positivity), mul_assoc, ← zpow_add₀ two_ne_zero]
    congr 2
    ring
  rw [hscaled] at hstands
  have hnearest := hstands.isNearest
  refine ⟨s, _, hgrid, hnearest, ?_⟩
  have hle : (ExtendedMantissa.ofMantissaAndAccuracy q accuracy >>> (s - t).toNat).roundedMantissa ≤
      2 ^ 53 := by
    apply hnearest.ge_of_ge
    rw [div_le_iff₀ (by positivity)]
    refine hgrid.lt.le.trans_eq ?_
    rw [zpow_add₀ two_ne_zero]
    norm_num
  unfold roundWithAccuracy
  rw [hshift]
  simp only
  generalize (ExtendedMantissa.ofMantissaAndAccuracy q accuracy >>> (s - t).toNat).roundedMantissa =
    n at hle
  rcases Nat.lt_or_eq_of_le hle with hlt | rfl
  · rw [shiftToTargetExponent_of_lt .exact hlt hgrid.low]
    unfold carried
    simp only [if_pos hlt]
    rfl
  · obtain ⟨sticky, hcarry⟩ := shiftToTargetExponent_two_pow .exact hgrid.low
    rw [hcarry]
    rfl

namespace Rounds

variable {sign : Sign} {v : ℚ} {u : UnpackedFloat} {m : Nat} {e : ℤ}

/-- A value that is not below a number is not rounded to a smaller one. The grid of the value is
that of the number or a wider one: then mantissas are compared, or the exponent that is found is the
larger one. -/
theorem ge_of_ge (h : Rounds sign v u) (hc : IsCanonical m e) (hpos : 0 < m)
    (hle : (m : ℚ) * 2 ^ e ≤ v) :
    ∃ n t hn, u = .finite sign n t hn ∧ (e < t ∨ e = t ∧ m ≤ n) := by
  obtain ⟨t, n, hgrid, hnearest, rfl⟩ := h
  have ht := hgrid.le_of_le hc hle
  have hscaled : (m : ℚ) * 2 ^ e / 2 ^ t ≤ v / 2 ^ t := by gcongr
  have hn : 0 < n ∧ (e = t → m ≤ n) := by
    rcases ht.eq_or_lt with rfl | hlt
    · rw [mul_div_cancel_right₀ _ (by positivity)] at hscaled
      have hmn := hnearest.le_of_le hscaled
      exact ⟨by omega, fun _ => hmn⟩
    · have hfull := hgrid.full.resolve_left (by have := hc.low; omega)
      have hmany : ((2 ^ 52 : ℕ) : ℚ) ≤ v / 2 ^ t := by
        rw [le_div_iff₀ (by positivity)]
        refine le_trans (le_of_eq ?_) hfull
        rw [zpow_add₀ two_ne_zero]
        norm_num
      have hn := hnearest.le_of_le hmany
      exact ⟨by omega, fun heq => absurd heq hlt.ne⟩
  unfold carried
  rw [dif_neg hn.1.ne']
  split
  · exact ⟨n, t, hn.1, rfl, by omega⟩
  · exact ⟨2 ^ 52, t + 1, by decide, rfl, by omega⟩

/-- Nor is a value that is not above a number rounded to a larger one. Its grid is at least as fine
as that of the number, so the number is on it, and nothing on the grid is passed on the way to the
nearest. -/
theorem le_of_le (h : Rounds sign v u) (hc : IsCanonical m e) (hle : v ≤ (m : ℚ) * 2 ^ e) :
    u = .zero sign ∨ ∃ n t hn, u = .finite sign n t hn ∧ (t < e ∨ t = e ∧ n ≤ m) := by
  obtain ⟨t, n, hgrid, hnearest, rfl⟩ := h
  have ht := hgrid.ge_of_ge hc hle
  have hscaled : v / 2 ^ t ≤ (m * 2 ^ (e - t).toNat : ℕ) := by
    rw [div_le_iff₀ (by positivity)]
    refine hle.trans_eq ?_
    push_cast
    rw [mul_assoc, ← zpow_natCast, Int.toNat_of_nonneg (by omega), ← zpow_add₀ two_ne_zero]
    congr 2
    ring
  have hn := hnearest.ge_of_ge hscaled
  have hlt := hc.lt
  unfold carried
  split
  · exact .inl rfl
  next hpos =>
    refine .inr ?_
    split
    · refine ⟨n, t, Nat.pos_of_ne_zero hpos, rfl, ?_⟩
      rcases ht.eq_or_lt with rfl | hlt
      · rw [sub_self, Int.toNat_zero, pow_zero, mul_one] at hn
        exact .inr ⟨rfl, hn⟩
      · exact .inl hlt
    · refine ⟨2 ^ 52, t + 1, by decide, rfl, ?_⟩
      rcases ht.eq_or_lt with rfl | hlt'
      · rw [sub_self, Int.toNat_zero, pow_zero, mul_one] at hn
        omega
      · have := hc.full
        have := hgrid.low
        omega

/-- What a value is rounded to has the form of a number, if it is not too large: a mantissa of more
than 53 digits can only be the power of two that was carried. -/
theorem shape (h : Rounds sign v u) :
    u = .zero sign ∨ ∃ n t hn, u = .finite sign n t hn ∧ (t ≤ 971 → IsCanonical n t) := by
  obtain ⟨t, n, hgrid, hnearest, rfl⟩ := h
  have hlow := hgrid.low
  unfold carried
  split
  · exact .inl rfl
  next hpos =>
    refine .inr ?_
    split
    next hlt =>
      refine ⟨n, t, Nat.pos_of_ne_zero hpos, rfl, fun hhigh => ⟨hlt, hlow, hhigh, ?_⟩⟩
      rcases hgrid.full with hsmall | hfull
      · exact .inr hsmall
      · left
        apply hnearest.le_of_le
        rw [le_div_iff₀ (by positivity)]
        refine le_trans (le_of_eq ?_) hfull
        rw [zpow_add₀ two_ne_zero]
        norm_num
    · exact ⟨2 ^ 52, t + 1, by decide, rfl, fun hhigh => ⟨by decide, by omega, hhigh, .inl le_rfl⟩⟩

/-- There is one number that a value is rounded to. So two computations that round the same value
have the same result. -/
theorem unique {u' : UnpackedFloat} (h : Rounds sign v u) (h' : Rounds sign v u') : u = u' := by
  obtain ⟨t, n, hgrid, hnearest, rfl⟩ := h
  obtain ⟨t', n', hgrid', hnearest', rfl⟩ := h'
  obtain rfl := hgrid.unique hgrid'
  rw [hnearest.unique hnearest']

end Rounds

/-- The distance, in units of the last digit, from a number to the middle between it and the one
below it: half a unit, and half of that below a power of two, where the numbers are twice as dense. -/
def below (m : Nat) (e : ℤ) : ℚ := if m = 2 ^ 52 ∧ -1074 < e then 1 / 4 else 1 / 2

/-- Below a power of two the middle is nearer, so half a unit is the most. -/
theorem below_le (m : Nat) (e : ℤ) : below m e ≤ 1 / 2 := by
  unfold below
  split <;> norm_num

/-- The values that are as near to a number as to any other one. The middles between two numbers
belong to the one that is even. -/
structure IsNear (m : Nat) (e : ℤ) (v : ℚ) : Prop where
  low : m - below m e ≤ v / 2 ^ e
  high : v / 2 ^ e ≤ m + 1 / 2
  odd : m % 2 = 1 → (m : ℚ) - 1 / 2 < v / 2 ^ e ∧ v / 2 ^ e < m + 1 / 2

namespace IsNear

variable {m : Nat} {e : ℤ} {v : ℚ}

/-- Near a number, measured in units of its last digit, its mantissa is the nearest whole number. -/
theorem isNearest (h : IsNear m e v) : IsNearest (v / 2 ^ e) m := by
  have hbelow := below_le m e
  have hle : |v / 2 ^ e - m| ≤ 1 / 2 :=
    abs_le.mpr ⟨by linarith [h.low], by linarith [h.high]⟩
  rcases hle.lt_or_eq with hlt | heq
  · exact .inl hlt
  · refine .inr ⟨heq, ?_⟩
    rcases Nat.mod_two_eq_zero_or_one m with heven | hodd
    · exact heven
    · obtain ⟨hlow, hhigh⟩ := h.odd hodd
      exact absurd heq (abs_lt.mpr ⟨by linarith, by linarith⟩).ne

/-- Nearer to a power of two than to the number below it, the grid is that of the lower one, and the
power of two is a number of that grid too. -/
theorem isNearest_of_lt (h : IsNear m e v) (hc : IsCanonical m e) (he : e ≠ -1074)
    (hlt : v / 2 ^ e < 2 ^ 52) : m = 2 ^ 52 ∧ IsNearest (v / 2 ^ (e - 1)) (2 ^ 53) := by
  have hbelow := below_le m e
  have hm : m = 2 ^ 52 := by
    have hmlt : (m : ℚ) < (2 ^ 52 + 1 : ℕ) := by
      push_cast
      linarith [h.low]
    have hmlt' : m < 2 ^ 52 + 1 := by exact_mod_cast hmlt
    exact Nat.le_antisymm (Nat.lt_succ_iff.mp hmlt') (hc.full.resolve_right he)
  have hquarter : below m e = 1 / 4 := if_pos ⟨hm, lt_of_le_of_ne hc.low he.symm⟩
  have hlow := h.low
  rw [hquarter, hm] at hlow
  have hdouble : v / 2 ^ (e - 1) = 2 * (v / 2 ^ e) := by
    rw [zpow_sub_one₀ two_ne_zero]
    field_simp
  have hle : |v / 2 ^ (e - 1) - (2 ^ 53 : ℕ)| ≤ 1 / 2 := by
    rw [hdouble, abs_le]
    push_cast at hlow ⊢
    constructor <;> linarith
  exact ⟨hm, hle.lt_or_eq.imp_right fun heq => ⟨heq, by decide⟩⟩

/-- **What is near a number is rounded to it.** Above a power of two the grid of the value is that
of the number. Right below one it is the finer grid of the numbers there, in which the power of two
has a place as well. -/
theorem rounds (h : IsNear m e v) (hc : IsCanonical m e) (hpos : 0 < m) (sign : Sign) :
    Rounds sign v (.finite sign m e hpos) := by
  have hpow : (0 : ℚ) < 2 ^ e := by positivity
  have hup : v < 2 ^ (53 + e) := by
    have hm : (m : ℚ) + 1 ≤ 2 ^ (53 : ℤ) := by exact_mod_cast hc.lt
    rw [zpow_add₀ two_ne_zero, ← div_lt_iff₀ hpow]
    linarith [h.high]
  by_cases hgrid : e = -1074 ∨ (2 : ℚ) ^ (52 + e) ≤ v
  · refine ⟨e, m, ⟨hc.low, hup, hgrid⟩, h.isNearest, ?_⟩
    unfold carried
    rw [dif_neg hpos.ne', if_pos hc.lt]
  · obtain ⟨he, hsmall⟩ := not_or.mp hgrid
    rw [not_le, zpow_add₀ two_ne_zero, ← div_lt_iff₀ hpow] at hsmall
    obtain ⟨rfl, hnearest⟩ := h.isNearest_of_lt hc he (by exact_mod_cast hsmall)
    have hlow := hc.low
    refine ⟨e - 1, 2 ^ 53, ⟨by omega, ?_, .inr ?_⟩, hnearest, ?_⟩
    · rw [show 53 + (e - 1) = 52 + e by ring, zpow_add₀ two_ne_zero, ← div_lt_iff₀ hpow]
      exact_mod_cast hsmall
    · have hbelow := below_le (2 ^ 52) e
      have hv := h.low
      rw [show 52 + (e - 1) = 51 + e by ring, zpow_add₀ two_ne_zero, ← le_div_iff₀ hpow]
      norm_num at hv ⊢
      linarith
    · unfold carried
      simp

end IsNear

/-! ## Exact values -/

theorem log2_shiftLeft {m : Nat} (hm : 0 < m) (k : Nat) : (m <<< k).log2 = m.log2 + k := by
  have hpos : 0 < 2 ^ k := Nat.two_pow_pos k
  rw [Nat.shiftLeft_eq, Nat.log2_eq_iff (Nat.mul_pos hm hpos).ne', Nat.add_right_comm, Nat.pow_add,
    Nat.pow_add]
  exact ⟨Nat.mul_le_mul_right _ (Nat.log2_self_le hm.ne'),
    Nat.mul_lt_mul_of_pos_right Nat.lt_log2_self hpos⟩

/-- A whole mantissa is rounded with as many digits as the number has, zeros behind it if need be.
The zeros do not change the value, so it stands for itself exactly. -/
theorem round_rounds (sign : Sign) {m : Nat} (hm : 0 < m) (e : ℤ) :
    Rounds sign (m * 2 ^ e) (UnpackedFloat.round Format.binary64 sign m e) := by
  obtain ⟨k, hk⟩ : ∃ k : ℕ, k = (e - max ((m.log2 : ℤ) + e - 52) (-1074)).toNat := ⟨_, rfl⟩
  have hlog := log2_shiftLeft hm k
  have hrounds := roundWithAccuracy_rounds sign (t := e - k) (Stands.exact (m <<< k))
    (by rw [hlog]; omega)
  have hvalue : ((m <<< k : ℕ) : ℚ) * 2 ^ (e - k) = m * 2 ^ e := by
    rw [Nat.shiftLeft_eq, zpow_sub₀ two_ne_zero, zpow_natCast]
    push_cast
    field_simp
  rw [hvalue] at hrounds
  rw [UnpackedFloat.round, targetExponent_eq, decreaseExponent, ← hk]
  exact hrounds

/-! ## Packing -/

/-- A number that is rounded is packed as it is, or as an infinity if it is too large. -/
theorem Rounds.unpack_pack {sign : Sign} {v : ℚ} {u : UnpackedFloat} (h : Rounds sign v u) :
    (Float.Model.pack u).unpack = u ∨
      (∃ m e hm, u = .finite sign m e hm ∧ 971 < e) ∧
        (Float.Model.pack u).unpack = .infinity sign := by
  rcases h.shape with rfl | ⟨m, e, hm, rfl, hc⟩
  · left
    cases sign <;> rfl
  · by_cases he : e ≤ 971
    · exact .inl (Binary64.unpack_pack (hc he))
    · exact .inr ⟨⟨m, e, hm, rfl, by omega⟩, unpack_pack_of_large (by omega)⟩

end PhasePortrait.Binary64
