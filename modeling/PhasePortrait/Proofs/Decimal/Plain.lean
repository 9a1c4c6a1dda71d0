import PhasePortrait.Binary64.Read
import PhasePortrait.Proofs.Decimal.Shortest

/-!
# Plain texts of decimals

The plain text of a decimal is digits, with a point and more digits where there are places
(`IsNumeral`). Whether zeros are put before the digits, behind them, or the point among them, **the
digits stand for the decimal**: as one whole number, over the power of ten that counts the places
(`plain_isNumeral`).
-/

namespace PhasePortrait.Decimal

open PhasePortrait.Binary64 (digitsValue)

/-- A text of digits, or of digits, a point and digits. -/
structure IsNumeral (text whole fraction : List Char) : Prop where
  nonempty : whole ≠ []
  isDigit_whole : ∀ c ∈ whole, c.isDigit = true
  isDigit_fraction : ∀ c ∈ fraction, c.isDigit = true
  text_eq : text = whole ∧ fraction = [] ∨ text = whole ++ '.' :: fraction

/-! ## Digits -/

theorem isDigit_zeros (n : ℕ) : ∀ c ∈ zeros n, c.isDigit = true := by
  intro c hc
  rw [List.eq_of_mem_replicate hc]
  rfl

theorem isDigit_digitChars (d : Decimal) : ∀ c ∈ d.digitChars, c.isDigit = true := fun _ =>
  Nat.isDigit_of_mem_toDigits (by decide) (by decide)

theorem digitsValue_zeros_append (n : ℕ) (digits : List Char) :
    digitsValue (zeros n ++ digits) = digitsValue digits := by
  have hzeros : digitsValue (zeros n) = 0 := Nat.ofDigitChars_replicate_zero
  have happend : digitsValue (zeros n ++ digits) =
      Nat.ofDigitChars 10 digits (digitsValue (zeros n)) := Nat.ofDigitChars_append 0
  rw [happend, hzeros]
  rfl

theorem digitsValue_append_zeros (digits : List Char) (n : ℕ) :
    digitsValue (digits ++ zeros n) = 10 ^ n * digitsValue digits :=
  (Nat.ofDigitChars_append 0).trans Nat.ofDigitChars_replicate_zero

theorem digitsValue_digitChars (d : Decimal) : digitsValue d.digitChars = d.digits :=
  Nat.ofDigitChars_ten_toDigits

/-! ## Layouts -/

/-- The value of a decimal over a count of places that reaches its last digit. -/
theorem value_of_nonpos {d : Decimal} {places : ℕ} (h : d.exponent = -places) :
    (d.digits : ℚ) / 10 ^ places = d.value := by
  rw [value, h, zpow_neg, zpow_natCast, div_eq_mul_inv]

/-- Digits with the point among them have as many places as digits behind it. -/
theorem pointAfter_eq {n : ℕ} {digits : List Char} (hn : n < digits.length) :
    pointAfter n digits = digits.take n ++ '.' :: digits.drop n := by
  have hne : digits.drop n ≠ [] := by simpa using hn
  unfold pointAfter
  split
  next h => exact absurd h hne
  next => rfl

/-- **The digits of a plain text stand for the decimal.** Where the point comes behind all digits
zeros are filled in, where it comes before them zeros are put in front, and otherwise it is put
between two of them; neither changes the value. -/
theorem plain_isNumeral (d : Decimal) :
    ∃ whole fraction, IsNumeral d.plain.toList whole fraction ∧
      (digitsValue (whole ++ fraction) : ℚ) / 10 ^ fraction.length = d.value := by
  have hdigit := d.isDigit_digitChars
  have hvalue := d.digitsValue_digitChars
  have hlength : 0 < d.digitChars.length := Nat.length_toDigits_pos
  have hpoint : d.point = d.digitChars.length + d.exponent := rfl
  unfold plain
  dsimp only
  rw [String.toList_ofList]
  split
  next hsmall =>
    -- The first zero counts for nothing either.
    have hdigits : digitsValue (['0'] ++ (zeros (-d.point).toNat ++ d.digitChars)) = d.digits := by
      rw [show ['0'] = zeros 1 from rfl, digitsValue_zeros_append, digitsValue_zeros_append, hvalue]
    refine ⟨['0'], zeros (-d.point).toNat ++ d.digitChars,
      ⟨nofun, isDigit_zeros 1, ?_, .inr rfl⟩, ?_⟩
    · intro c hc
      rcases List.mem_append.mp hc with hc | hc
      · exact isDigit_zeros _ c hc
      · exact hdigit c hc
    · rw [hdigits]
      apply value_of_nonpos
      rw [List.length_append, zeros, List.length_replicate]
      omega
  next hlarge =>
    split
    next hwhole =>
      have hexponent : d.exponent = (d.point.toNat - d.digitChars.length : ℕ) := by omega
      refine ⟨d.digitChars ++ zeros (d.point.toNat - d.digitChars.length), [],
        ⟨?_, ?_, nofun, .inl ⟨rfl, rfl⟩⟩, ?_⟩
      · exact List.append_ne_nil_of_left_ne_nil (List.ne_nil_of_length_pos hlength) _
      · intro c hc
        rcases List.mem_append.mp hc with hc | hc
        · exact hdigit c hc
        · exact isDigit_zeros _ c hc
      · rw [List.append_nil, digitsValue_append_zeros, hvalue, value, hexponent, zpow_natCast]
        push_cast
        simp [mul_comm]
    next hamong =>
      have hn : d.point.toNat < d.digitChars.length := Nat.not_le.mp hamong
      refine ⟨d.digitChars.take d.point.toNat, d.digitChars.drop d.point.toNat,
        ⟨?_, ?_, ?_, ?_⟩, ?_⟩
      · apply List.ne_nil_of_length_pos
        rw [List.length_take]
        omega
      · exact fun c hc => hdigit c (List.mem_of_mem_take hc)
      · exact fun c hc => hdigit c (List.mem_of_mem_drop hc)
      · exact .inr (pointAfter_eq hn)
      · rw [List.take_append_drop, hvalue]
        apply value_of_nonpos
        rw [List.length_drop]
        omega

end PhasePortrait.Decimal
