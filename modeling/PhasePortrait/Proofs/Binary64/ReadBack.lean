import PhasePortrait.Binary64.Text
import PhasePortrait.Expr.Scan
import PhasePortrait.Proofs.Binary64.Decimals
import PhasePortrait.Proofs.Binary64.Parts
import PhasePortrait.Proofs.Decimal.Plain

/-!
# Numbers read back from their texts

A decimal that is near a number is read as the number (`ofScientific_eq_of_isNear`), and the
shortest decimal of a number is near it. So **the plain text of a finite number is a numeral that
stands for the number** (`plain_reads_back`), unless it has a minus sign.

No literal has one: read from a text without a sign, a number is zero or above, or too large
(`negative_parts_literal`).
-/

namespace PhasePortrait.Binary64

open Float.Model (UnpackedFloat Format)
open Float.Model.UnpackedFloat
open PhasePortrait.Expr (literal)

section Decimals

variable {x : Float} {m : Nat} {e : ℤ} {hm : 0 < m}

/-- A decimal that is near a number does not have too many places. Readers give up on a number of
places beyond a bound, and a number above zero is so much larger than the value of such a decimal
that the two are not near. -/
theorem places_le {n k : Nat} (hc : IsCanonical m e) (hpos : 0 < m)
    (h : IsNear m e (n / 10 ^ k)) : 0 < n ∧ k ≤ 2048 + n.log2 := by
  have hscale : (0 : ℚ) < 2 ^ e := by positivity
  have hsmallest : (2 : ℚ) ^ (-1075 : ℤ) ≤ n / 10 ^ k := by
    have hm' : (1 : ℚ) ≤ m := by exact_mod_cast hpos
    have hlow := h.low
    rw [le_div_iff₀ hscale] at hlow
    have hbelow := below_le m e
    have hhalf : (1 : ℚ) / 2 ≤ m - below m e := by linarith
    calc (2 : ℚ) ^ (-1075 : ℤ) = 1 / 2 * 2 ^ (-1074 : ℤ) := by
          rw [show (-1075 : ℤ) = -1074 - 1 from rfl, zpow_sub_one₀ two_ne_zero, mul_comm, one_div]
      _ ≤ (m - below m e) * 2 ^ e :=
          mul_le_mul hhalf (two_zpow_le.mpr hc.low) (by positivity) (by linarith)
      _ ≤ n / 10 ^ k := hlow
  have hn : 0 < n := by
    rcases Nat.eq_zero_or_pos n with rfl | hn
    · rw [Nat.cast_zero, zero_div] at hsmallest
      exact absurd hsmallest (not_le.mpr (by positivity))
    · exact hn
  refine ⟨hn, ?_⟩
  -- Ten places are three binary digits at least.
  have hpow : (2 : ℚ) ^ (3 * k) < 2 ^ (n.log2 + 1 + 1075) := by
    rw [le_div_iff₀ (by positivity), zpow_neg, inv_mul_le_iff₀ (by positivity), zpow_ofNat]
      at hsmallest
    have hlog : (n : ℚ) < 2 ^ (n.log2 + 1) := by exact_mod_cast Nat.lt_log2_self
    calc (2 : ℚ) ^ (3 * k) = 8 ^ k := by rw [pow_mul]; norm_num
      _ ≤ 10 ^ k := pow_le_pow_left₀ (by norm_num) (by norm_num) k
      _ ≤ 2 ^ 1075 * n := hsmallest
      _ < 2 ^ 1075 * 2 ^ (n.log2 + 1) := mul_lt_mul_of_pos_left hlog (by positivity)
      _ = 2 ^ (n.log2 + 1 + 1075) := (mul_comm _ _).trans (pow_add 2 (n.log2 + 1) 1075).symm
  rw [pow_lt_pow_iff_right₀ one_lt_two] at hpow
  omega

/-- **A decimal that is near a number is read as the number.** It is read as the nearest number, the
number is nearest, and there is only one. -/
theorem ofScientific_eq_of_isNear (hx : x.toModel.unpack = .finite .positive m e hm) {n k : Nat}
    (h : IsNear m e (n / 10 ^ k)) : (OfScientific.ofScientific n true k : Float) = x := by
  have hc := isCanonical_of_unpack hx
  obtain ⟨hn, hk⟩ := places_le hc hm h
  obtain ⟨u, hu, hrounds⟩ := ofScientific_rounds hn hk
  obtain rfl := hrounds.unique (h.rounds hc hm .positive)
  apply eq_of_unpack_eq
  rw [hu, unpack_pack hc, hx]

end Decimals

/-! ## Signs -/

section Signs

variable {x : Float}

/-- What a decimal without a sign is read as: zero if its digits are zero or if it has too many
places, and else its value, rounded. -/
theorem ofScientific_cases (n k : Nat) :
    ∃ u, (OfScientific.ofScientific n true k : Float).toModel = Float.Model.pack u ∧
      (u = .zero .positive ∨ ∃ v, Rounds .positive v u) := by
  rcases Nat.eq_zero_or_pos n with rfl | hn
  · -- Zero over a power of ten that is a number, or read as it is.
    show ∃ u, (Float.ofScientific 0 true k).toModel = Float.Model.pack u ∧ _
    unfold Float.ofScientific
    split
    next hsmall =>
      have hk : k < Float.exactlyRepresentablePowersOfTen.size := Nat.lt_succ_of_le hsmall.2
      obtain ⟨m, e, hm, hten, -⟩ := IsPositive.of_isTenTo (isTenTo_powers k hk)
      refine ⟨UnpackedFloat.div Format.binary64 (Nat.toUInt64 0).toFloat.toModel.unpack
        Float.exactlyRepresentablePowersOfTen[k].toModel.unpack, rfl, .inl ?_⟩
      rw [hten]
      rfl
    next => exact ⟨_, rfl, .inl rfl⟩
  · by_cases hk : k ≤ 2048 + n.log2
    · obtain ⟨u, hu, hrounds⟩ := ofScientific_rounds hn hk
      exact ⟨u, hu, .inr ⟨_, hrounds⟩⟩
    · -- So many places that nothing is left.
      refine ⟨.zero .positive, ?_, .inl rfl⟩
      have hbits : (2 : ℤ) ^ Format.binary64.exponentBits = 2048 := by decide
      have hnegative : Int.negOfNat k = -(k : ℤ) := Int.negOfNat_eq
      show (Float.ofScientific n true k).toModel = _
      rw [Float.ofScientific, dif_neg (by omega)]
      show Float.Model.pack (UnpackedFloat.ofScientific Format.binary64 n (Int.negOfNat k)) = _
      rw [UnpackedFloat.ofScientific, hbits, hnegative, dif_neg hn.ne']
      rw [if_neg (by omega), if_pos (by omega)]

/-- A finite number without a sign bit is zero or above. The zero with a sign bit compares like the
one without, and is left out here. -/
theorem negative_parts_eq_false_iff (hfinite : x.isFinite = true) :
    (parts x).negative = false ↔ x.toModel.unpack = .zero .positive ∨
      ∃ m e hm, x.toModel.unpack = .finite .positive m e hm := by
  have hsign : ∀ {s : Sign}, ((parts x).negative = true ↔ s = .negative) →
      ((parts x).negative = false ↔ s = .positive) := by
    intro s h
    rw [← Bool.not_eq_true, h]
    cases s <;> simp
  obtain ⟨s, hx⟩ | ⟨s, m, e, hm, hx, -⟩ := unpack_of_isFinite hfinite
  · rw [hsign (hasParts_of_zero hx).negative, hx]
    simp
  · rw [hsign (hasParts_of_finite hx).negative, hx]
    constructor
    · rintro rfl
      exact .inr ⟨m, e, hm, rfl⟩
    · rintro (h | ⟨m', e', hm', h⟩) <;> cases h
      rfl

/-- **A finite literal has no sign bit.** It is read from digits and a point, which is a decimal
without a sign. -/
theorem negative_parts_literal {whole fraction : List Char}
    (hfinite : (literal whole fraction : Float).isFinite = true) :
    (parts (literal whole fraction)).negative = false := by
  rw [negative_parts_eq_false_iff hfinite]
  obtain ⟨u, hu, hcases⟩ := ofScientific_cases (digitsValue (whole ++ fraction)) fraction.length
  replace hfinite : (literal whole fraction : Float).toModel.unpack.isFinite = true := hfinite
  rw [literal, hu] at hfinite ⊢
  rcases hcases with rfl | ⟨v, hrounds⟩
  · exact .inl rfl
  · rcases hrounds.unpack_pack with hpack | ⟨-, hpack⟩
    · rw [hpack]
      rcases hrounds.shape with rfl | ⟨m, e, hm, rfl, -⟩
      · exact .inl rfl
      · exact .inr ⟨m, e, hm, rfl⟩
    · rw [hpack] at hfinite
      cases hfinite

end Signs

/-! ## Texts -/

section Texts

variable {x : Float}

theorem plain_of_finite (hfinite : x.isFinite = true) (hsign : (parts x).negative = false) :
    plain x = (Decimal.shortest .away (parts x)).plain := by
  obtain ⟨hnan, hinf⟩ : x.isNaN = false ∧ x.isInf = false := by
    show x.toModel.unpack.isNaN = false ∧ x.toModel.unpack.isInf = false
    obtain ⟨s, hx⟩ | ⟨s, m, e, hm, hx, -⟩ := unpack_of_isFinite hfinite
    · rw [hx]
      exact ⟨rfl, rfl⟩
    · rw [hx]
      exact ⟨rfl, rfl⟩
  unfold plain textWith
  dsimp only
  rw [hnan, hinf, hsign, if_neg Bool.false_ne_true, if_neg Bool.false_ne_true,
    if_neg Bool.false_ne_true, String.empty_append]

/-- **The plain text of a finite number without a sign is a numeral, and is read as the number.**
The text is that of the shortest decimal, which is near the number; zero is written as a zero. -/
theorem plain_reads_back (hfinite : x.isFinite = true) (hsign : (parts x).negative = false) :
    ∃ whole fraction, Decimal.IsNumeral (plain x).toList whole fraction ∧
      literal whole fraction = x := by
  rw [plain_of_finite hfinite hsign]
  rcases (negative_parts_eq_false_iff hfinite).mp hsign with hx | ⟨m, e, hm, hx⟩
  · have hparts := hasParts_of_zero hx
    rw [Decimal.shortest, if_pos hparts.mantissa]
    refine ⟨['0'], [], ⟨List.cons_ne_nil _ _, Decimal.isDigit_zeros 1, Decimal.isDigit_zeros 0,
      .inl ⟨rfl, rfl⟩⟩, ?_⟩
    apply eq_of_unpack_eq
    rw [hx]
    rfl
  · obtain ⟨-, hmantissa, hexponent⟩ := hasParts_of_finite hx
    obtain ⟨whole, fraction, hnumeral, hvalue⟩ :=
      (Decimal.shortest .away (parts x)).plain_isNumeral
    have hc := isCanonical_of_unpack hx
    rw [← hmantissa, ← hexponent] at hc
    have hnear := Decimal.shortest_isNear .away hc (hmantissa ▸ hm)
    rw [hmantissa, hexponent, ← hvalue] at hnear
    exact ⟨whole, fraction, hnumeral, ofScientific_eq_of_isNear hx hnear⟩

end Texts

end PhasePortrait.Binary64
