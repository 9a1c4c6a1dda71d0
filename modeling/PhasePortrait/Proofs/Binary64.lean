import Mathlib
import PhasePortrait.Binary64.Basic

/-!
# Numbers and their parts

What the logical model of the numbers says, in the form that proofs need. A finite number other
than zero is a mantissa and an exponent of a canonical form (`isCanonical_of_unpack`), and every
canonical form is that of a number (`unpack_pack`). Numbers above zero compare as their exponents do,
and then as their mantissas (`finite_le_finite`); finite numbers are in a line (`lt_iff_not_le`).
-/

namespace PhasePortrait.Binary64

open Float.Model (UnpackedFloat Format)
open Float.Model.UnpackedFloat

/-- The mantissas and exponents that the finite numbers other than zero have. The mantissa has 53
digits, or the exponent is the least one and there are fewer. -/
structure IsCanonical (mantissa : Nat) (exponent : Int) : Prop where
  lt : mantissa < 2 ^ 53
  low : -1074 ≤ exponent
  high : exponent ≤ 971
  /-- The leading bit is missing from the smallest numbers only. -/
  full : 2 ^ 52 ≤ mantissa ∨ exponent = -1074

/-- The constants of the format, as numbers to calculate with. -/
theorem exponentBias_eq : Format.binary64.exponentBias = 1023 := by decide

theorem mantissaBits_eq : Format.binary64.mantissaBits = 53 := by decide

/-! ## Bits -/

section Bits

variable {sign : Sign} {field : BitVec 11} {fraction : BitVec 52}

/-- The bit in front of the fraction is worth as much as all others and one more. -/
theorem toNat_append_one (fraction : BitVec 52) :
    (1#1 ++ fraction).toNat = 2 ^ 52 + fraction.toNat := by
  rw [BitVec.toNat_append, ← Nat.shiftLeft_add_eq_or_of_lt fraction.isLt]
  rfl

theorem ofBitVec_toBitVec (sign : Sign) : Sign.ofBitVec sign.toBitVec = sign := by
  cases sign <;> rfl

theorem unpackSign_packComponents (sign : Sign) (field : BitVec 11) (fraction : BitVec 52) :
    @unpackSign Format.binary64 (packComponents Format.binary64 sign field fraction) =
      sign.toBitVec := by
  apply BitVec.eq_of_getLsbD_eq
  intro i hi
  obtain rfl : i = 0 := by omega
  simp only [unpackSign, packComponents, BitVec.getLsbD_cast, BitVec.getLsbD_extractLsb,
    BitVec.getLsbD_append]
  simp

/-- The bits of a number that has its leading bit. That bit is not among them: it is put back in
front of the fraction, and the exponent is the field without its bias. -/
theorem unpack_packComponents (hlow : 0 < field.toNat) (hhigh : field.toNat < 2047) :
    ∃ h, UnpackedFloat.unpack Format.binary64 (packComponents Format.binary64 sign field fraction) =
      .finite sign (2 ^ 52 + fraction.toNat) (field.toNat - 1075) h := by
  have hall : ¬field = -1#11 := by
    rw [← BitVec.toNat_inj, show (-1#11).toNat = 2047 from rfl]
    omega
  have hnone : ¬field = 0#11 := by
    rw [← BitVec.toNat_inj, show (0#11).toNat = 0 from rfl]
    omega
  refine ⟨Nat.add_pos_left (by decide) _, ?_⟩
  simp only [UnpackedFloat.unpack, unpackMantissa_packComponents, unpackExponent_packComponents,
    unpackSign_packComponents, ofBitVec_toBitVec, exponentBias_eq, toNat_append_one, if_neg hall,
    if_neg hnone]
  rfl

/-- The bits of one of the smallest numbers: its field is zero, nothing is put in front of the
fraction, and the exponent is the least one. -/
theorem unpack_packComponents_zero (h : 0 < fraction.toNat) :
    UnpackedFloat.unpack Format.binary64 (packComponents Format.binary64 sign 0#11 fraction) =
      .finite sign fraction.toNat (-1074) h := by
  have hsome : ¬fraction = 0#52 := by
    rw [← BitVec.toNat_inj]
    exact h.ne'
  simp only [UnpackedFloat.unpack, unpackMantissa_packComponents, unpackExponent_packComponents,
    unpackSign_packComponents, ofBitVec_toBitVec, exponentBias_eq, dif_neg hsome]
  rfl

end Bits

/-! ## Parts -/

section Parts

variable {sign : Sign} {m : Nat} {e : Int} {hm : 0 < m}

/-- What is unpacked from the bits of a number is of a canonical form: its mantissa has all of its
digits, or its exponent is the least one. -/
theorem isCanonical_of_unpack {x : Float.Model} (h : x.unpack = .finite sign m e hm) :
    IsCanonical m e := by
  have hfraction : (@unpackMantissa Format.binary64 x.toBits.toBitVec).toNat < 2 ^ 52 :=
    BitVec.isLt _
  have hfield : (@unpackExponent Format.binary64 x.toBits.toBitVec).toNat < 2 ^ 11 :=
    BitVec.isLt _
  simp only [Float.Model.unpack, UnpackedFloat.unpack, exponentBias_eq] at h
  split_ifs at h with hall hnone hsmall hzero
  · injection h with _ hmantissa hexponent
    rw [hsmall] at hexponent
    subst hmantissa hexponent
    exact ⟨by omega, by decide, by decide, .inr rfl⟩
  · rw [← BitVec.toNat_inj] at hall hsmall
    injection h with _ hmantissa hexponent
    rw [toNat_append_one] at hmantissa
    simp only [BitVec.neg_one_eq_allOnes, BitVec.toNat_allOnes, BitVec.toNat_ofNat] at hall hsmall
    exact ⟨by omega, by omega, by omega, .inl (by omega)⟩

/-- **A canonical form is kept** by packing. Either the mantissa has its leading bit, and then the
exponent goes into the field; or the exponent is the least one, and then the field is zero and the
leading bit is missed by nobody. -/
theorem unpack_pack (h : IsCanonical m e) :
    (Float.Model.pack (.finite sign m e hm)).unpack = .finite sign m e hm := by
  obtain ⟨hlt, hlow, hhigh, hfull⟩ := h
  have hfits : ¬2 ^ 11 ≤ (e + (1023 : Nat) + (52 : Nat)).toNat + 1 := by omega
  show UnpackedFloat.unpack _ (UnpackedFloat.pack _ _) = _
  simp only [UnpackedFloat.pack, exponentBias_eq, mantissaBits_eq]
  rw [if_neg hfits]
  by_cases hlead : 2 ^ 52 ≤ m
  · have hlog : m.log2 = 52 := (Nat.log2_eq_iff hm.ne').mpr ⟨hlead, hlt⟩
    have hfield : (BitVec.ofNat 11 (e + (1023 : Nat) + (52 : Nat)).toNat).toNat = e + 1075 := by
      rw [BitVec.toNat_ofNat, Nat.mod_eq_of_lt (by omega)]
      omega
    have hfraction : 2 ^ 52 + (BitVec.ofNat 52 m).toNat = m := by
      rw [BitVec.toNat_ofNat]
      omega
    obtain ⟨hpos, heq⟩ := @unpack_packComponents sign
      (BitVec.ofNat 11 (e + (1023 : Nat) + (52 : Nat)).toNat) (BitVec.ofNat 52 m) (by omega)
      (by omega)
    simp only [hfield, hfraction, Int.add_sub_cancel] at heq
    rw [hlog, if_pos rfl]
    exact heq
  · have hlog : m.log2 < 52 := (Nat.log2_lt hm.ne').mpr (by omega)
    have hfraction : (BitVec.ofNat 52 m).toNat = m := by
      rw [BitVec.toNat_ofNat]
      omega
    obtain rfl : e = -1074 := by omega
    rw [if_neg (by omega), unpack_packComponents_zero (by omega)]
    simp only [hfraction]

/-- What has too large an exponent is packed as an infinity. -/
theorem unpack_pack_of_large (h : 971 < e) :
    (Float.Model.pack (.finite sign m e hm)).unpack = .infinity sign := by
  have hover : 2 ^ 11 ≤ (e + (1023 : Nat) + (52 : Nat)).toNat + 1 := by omega
  show UnpackedFloat.unpack _ (UnpackedFloat.pack _ _) = _
  simp only [UnpackedFloat.pack, exponentBias_eq]
  rw [if_pos hover]
  cases sign <;> rfl

end Parts

/-! ## The order -/

/-- Both comparisons of the numbers are comparisons of what is unpacked from them. -/
theorem le_iff_unpack (x y : Float) : x ≤ y ↔ x.toModel.unpack.le y.toModel.unpack = true :=
  decide_eq_true_iff

theorem lt_iff_unpack (x y : Float) : x < y ↔ x.toModel.unpack.lt y.toModel.unpack = true :=
  decide_eq_true_iff

section Order

variable {m m' : Nat} {e e' : Int} {hm : 0 < m} {hm' : 0 < m'}

/-- Of two numbers above zero, the one of the larger exponent is larger. Canonical forms of one
exponent are compared by their mantissas. -/
theorem finite_le_finite :
    (UnpackedFloat.finite .positive m e hm).le (.finite .positive m' e' hm') = true ↔
      e < e' ∨ e = e' ∧ m ≤ m' := by
  show ((compare e e').then (compare m m')).isLE = true ↔ _
  rw [Ordering.isLE_then_iff_or, compare_lt_iff_lt, compare_eq_iff_eq, Nat.isLE_compare]

theorem finite_lt_finite :
    (UnpackedFloat.finite .positive m e hm).lt (.finite .positive m' e' hm') = true ↔
      e < e' ∨ e = e' ∧ m < m' := by
  show (some ((compare e e').then (compare m m')) == some .lt) = true ↔ _
  rw [beq_iff_eq, Option.some_inj, Ordering.then_eq_lt, compare_lt_iff_lt, compare_eq_iff_eq,
    compare_lt_iff_lt]

theorem finite_lt_iff_not_le {sign sign' : Sign} :
    (UnpackedFloat.finite sign m e hm).lt (.finite sign' m' e' hm') = true ↔
      ¬(UnpackedFloat.finite sign' m' e' hm').le (.finite sign m e hm) = true := by
  have hswap : (compare e' e).then (compare m' m) = ((compare e e').then (compare m m')).swap := by
    rw [Ordering.swap_then, ← Std.OrientedCmp.eq_swap, ← Std.OrientedCmp.eq_swap]
  cases sign with
  | negative =>
    cases sign' with
    | negative =>
      show (some ((compare e e').then (compare m m')).swap == some .lt) = true ↔
        ¬((compare e' e).then (compare m' m)).swap.isLE = true
      rw [hswap]
      cases (compare e e').then (compare m m') <;> decide
    | positive => exact ⟨fun _ => nofun, fun _ => rfl⟩
  | positive =>
    cases sign' with
    | negative => exact ⟨nofun, fun h => absurd rfl h⟩
    | positive =>
      rw [finite_lt_finite, finite_le_finite]
      omega

theorem unpack_zero : (0.0 : Float).toModel.unpack = .zero .positive := rfl

variable {x y : Float}

/-- What is below a number is at most that number. The two comparisons are two tests, so this is to
be proved like any other fact about them. -/
theorem le_of_lt (h : x < y) : x ≤ y := by
  rw [lt_iff_unpack, UnpackedFloat.lt, beq_iff_eq] at h
  rw [le_iff_unpack, UnpackedFloat.le, h]
  rfl

/-- **Finite numbers are in a line**, which the two zeros share a place of. Being finite matters on
both sides: what is not a number compares with nothing. -/
theorem lt_iff_not_le (hx : x.isFinite = true) (hy : y.isFinite = true) : x < y ↔ ¬y ≤ x := by
  rw [le_iff_unpack, lt_iff_unpack]
  replace hx : x.toModel.unpack.isFinite = true := hx
  replace hy : y.toModel.unpack.isFinite = true := hy
  generalize x.toModel.unpack = u at hx ⊢
  generalize y.toModel.unpack = v at hy ⊢
  cases u with
  | infinity | notANumber => cases hx
  | zero =>
    cases v with
    | infinity | notANumber => cases hy
    | zero => exact ⟨nofun, fun h => absurd rfl h⟩
    | finite sign =>
      cases sign with
      | negative => exact ⟨nofun, fun h => absurd rfl h⟩
      | positive => exact ⟨fun _ => nofun, fun _ => rfl⟩
  | finite sign =>
    cases v with
    | infinity | notANumber => cases hy
    | zero =>
      cases sign with
      | negative => exact ⟨fun _ => nofun, fun _ => rfl⟩
      | positive => exact ⟨nofun, fun h => absurd rfl h⟩
    | finite sign' => exact finite_lt_iff_not_le

/-- A finite number is a zero or has parts, and its parts are of a canonical form. Most proofs on
finite numbers start with these two cases. -/
theorem unpack_of_isFinite (hfinite : x.isFinite = true) :
    (∃ sign, x.toModel.unpack = .zero sign) ∨
      ∃ sign m e hm, x.toModel.unpack = .finite sign m e hm ∧ IsCanonical m e := by
  replace hfinite : x.toModel.unpack.isFinite = true := hfinite
  cases hx : x.toModel.unpack with
  | infinity | notANumber =>
    rw [hx] at hfinite
    cases hfinite
  | zero sign => exact .inl ⟨sign, rfl⟩
  | finite sign m e hm => exact .inr ⟨sign, m, e, hm, rfl, isCanonical_of_unpack hx⟩

/-- A finite number above zero has parts, and a positive sign. Being above zero rules out both
zeros. -/
theorem parts_of_pos (hfinite : x.isFinite = true) (hpos : (0.0 : Float) < x) :
    ∃ m e hm, x.toModel.unpack = .finite .positive m e hm ∧ IsCanonical m e := by
  rw [lt_iff_unpack, unpack_zero] at hpos
  obtain ⟨sign, hx⟩ | ⟨sign, m, e, hm, hx, hc⟩ := unpack_of_isFinite hfinite
  · rw [hx] at hpos
    cases hpos
  · cases sign with
    | negative =>
      rw [hx] at hpos
      cases hpos
    | positive => exact ⟨m, e, hm, hx, hc⟩

/-- What lies between two finite numbers is finite. What is not a number lies between none, and an
infinity is beyond one of the two. -/
theorem isFinite_of_between {low high x : Float} (hlow : low.isFinite = true)
    (hhigh : high.isFinite = true) (hlowx : low ≤ x) (hxhigh : x ≤ high) : x.isFinite = true := by
  change low.toModel.unpack.isFinite = true at hlow
  change high.toModel.unpack.isFinite = true at hhigh
  show x.toModel.unpack.isFinite = true
  rw [le_iff_unpack] at hlowx hxhigh
  generalize low.toModel.unpack = l at hlow hlowx
  generalize high.toModel.unpack = h at hhigh hxhigh
  generalize x.toModel.unpack = u at hlowx hxhigh ⊢
  cases u with
  | zero | finite => rfl
  | notANumber => cases h <;> cases hxhigh
  | infinity sign =>
    -- Above everything finite, or below.
    cases sign with
    | positive =>
      cases h with
      | infinity | notANumber => cases hhigh
      | zero | finite => cases hxhigh
    | negative =>
      cases l with
      | infinity | notANumber => cases hlow
      | zero | finite => cases hlowx

end Order

end PhasePortrait.Binary64
