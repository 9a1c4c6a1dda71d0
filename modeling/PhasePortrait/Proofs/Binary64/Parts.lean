import PhasePortrait.Proofs.Binary64.Order

/-!
# Parts of a number

The mantissa and the exponent that are read off the bits of a finite number are those of the logical
model, and the sign bit is its sign (`hasParts_of_finite`, `hasParts_of_zero`). A finite number is
known by them: **numbers that unpack to the same are the same** (`eq_of_unpack_eq`).
-/

namespace PhasePortrait.Binary64

open Float.Model (UnpackedFloat Format)
open Float.Model.UnpackedFloat

/-! ## Fields -/

section Fields

variable (bits : UInt64)

/-- The fields of the bits are cut out by shifts and masks; in whole numbers these are remainders
and quotients. The mantissa is the lowest of them. -/
theorem toNat_unpackMantissa :
    (@unpackMantissa Format.binary64 bits.toBitVec).toNat = bits.toNat % leadingBit := by
  simp [unpackMantissa, BitVec.extractLsb, BitVec.extractLsb', leadingBit]

theorem toNat_unpackExponent :
    (@unpackExponent Format.binary64 bits.toBitVec).toNat = bits.toNat / leadingBit % 2048 := by
  simp [unpackExponent, BitVec.extractLsb, BitVec.extractLsb', Nat.shiftRight_eq_div_pow,
    leadingBit]

theorem toNat_unpackSign :
    (@unpackSign Format.binary64 bits.toBitVec).toNat = bits.toNat / (2048 * leadingBit) := by
  have hlt : bits.toNat / 2 ^ 63 < 2 := by
    have := bits.toNat_lt
    omega
  have hsize : 2048 * leadingBit = 2 ^ 63 := by decide
  rw [hsize]
  simp [unpackSign, BitVec.extractLsb, BitVec.extractLsb', Nat.shiftRight_eq_div_pow]
  omega

theorem ofBitVec_eq_negative (v : BitVec 1) : Sign.ofBitVec v = .negative ↔ v.toNat = 1 := by
  have hlt := v.isLt
  unfold Sign.ofBitVec
  split
  next hzero => simp [hzero]
  next hone =>
    rw [← BitVec.toNat_inj, BitVec.toNat_ofNat] at hone
    simp only [true_iff]
    omega

end Fields

/-! ## Parts -/

section Parts

variable {x y : Float} {s : Sign} {m : Nat} {e : Int} {hm : 0 < m}

/-- The parts of a number are a sign, a mantissa and an exponent. -/
structure HasParts (x : Float) (s : Sign) (m : Nat) (e : Int) : Prop where
  negative : (parts x).negative = true ↔ s = .negative
  mantissa : (parts x).mantissa = m
  exponent : (parts x).exponent = e

theorem negative_parts (x : Float) :
    (parts x).negative = true ↔
      Sign.ofBitVec (@unpackSign Format.binary64 x.toModel.toBits.toBitVec) = .negative := by
  have hbits : (parts x).negative = (x.toModel.toBits.toNat / (2048 * leadingBit) == 1) := by
    unfold parts
    dsimp only
    split <;> rfl
  rw [hbits, ofBitVec_eq_negative, toNat_unpackSign, beq_iff_eq]

/-- The parts as the fields give them: the smallest numbers have no leading bit. -/
theorem parts_of_field_eq_zero
    (h : (@unpackExponent Format.binary64 x.toModel.toBits.toBitVec).toNat = 0) :
    (parts x).mantissa = (@unpackMantissa Format.binary64 x.toModel.toBits.toBitVec).toNat ∧
      (parts x).exponent = -1074 := by
  rw [toNat_unpackExponent] at h
  rw [toNat_unpackMantissa]
  unfold parts
  dsimp only
  rw [if_pos (show x.toBits.toNat / leadingBit % 2048 = 0 from h)]
  exact ⟨rfl, rfl⟩

/-- All other numbers have a leading bit that is not written, so it is added to the mantissa; the
1075 takes the bias and the 52 digits of the fraction together. -/
theorem parts_of_field_ne_zero
    (h : (@unpackExponent Format.binary64 x.toModel.toBits.toBitVec).toNat ≠ 0) :
    (parts x).mantissa =
        leadingBit + (@unpackMantissa Format.binary64 x.toModel.toBits.toBitVec).toNat ∧
      (parts x).exponent =
        (@unpackExponent Format.binary64 x.toModel.toBits.toBitVec).toNat - (1075 : Int) := by
  rw [toNat_unpackExponent] at h ⊢
  rw [toNat_unpackMantissa]
  unfold parts
  dsimp only
  rw [if_neg (show ¬x.toBits.toNat / leadingBit % 2048 = 0 from h)]
  exact ⟨rfl, rfl⟩

/-- **The parts of a number are its mantissa and its exponent.** The parts are computed from the
whole number that the bits are, and the model takes the bits apart; field by field they agree. -/
theorem hasParts_of_finite (h : x.toModel.unpack = .finite s m e hm) : HasParts x s m e := by
  have hnegative := negative_parts x
  simp only [Float.Model.unpack, UnpackedFloat.unpack, exponentBias_eq] at h
  split_ifs at h with hall hnone hsmall hzero
  · injection h with hsign hmantissa hexponent
    rw [← BitVec.toNat_inj] at hsmall
    obtain ⟨hm', he'⟩ := parts_of_field_eq_zero (x := x) hsmall
    refine ⟨hsign ▸ hnegative, hm'.trans hmantissa, he'.trans ?_⟩
    rw [← hexponent, hsmall]
    rfl
  · injection h with hsign hmantissa hexponent
    rw [← BitVec.toNat_inj] at hsmall
    obtain ⟨hm', he'⟩ := parts_of_field_ne_zero (x := x) hsmall
    refine ⟨hsign ▸ hnegative, hm'.trans ?_, he'.trans hexponent⟩
    rw [← hmantissa, toNat_append_one]
    rfl

theorem hasParts_of_zero (h : x.toModel.unpack = .zero s) : HasParts x s 0 (-1074) := by
  have hnegative := negative_parts x
  simp only [Float.Model.unpack, UnpackedFloat.unpack, exponentBias_eq] at h
  split_ifs at h with hall hnone hsmall hzero
  injection h with hsign
  rw [← BitVec.toNat_inj] at hsmall
  obtain ⟨hm', he'⟩ := parts_of_field_eq_zero (x := x) hsmall
  exact ⟨hsign ▸ hnegative, hm'.trans (by rw [hzero]; rfl), he'⟩

/-- **Numbers that unpack to the same are the same**: "not a number" has one form. -/
theorem eq_of_unpack_eq (h : x.toModel.unpack = y.toModel.unpack) : x = y := by
  obtain ⟨⟨⟨xbits⟩, hx⟩⟩ := x
  obtain ⟨⟨⟨ybits⟩, hy⟩⟩ := y
  have hbits : xbits = ybits := (unpack_inj_of_valid hx hy).mp h
  subst hbits
  rfl

end Parts

end PhasePortrait.Binary64
