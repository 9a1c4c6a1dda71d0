import PhasePortrait.Expr.Token

/-!
# ASCII

Digits, letters and symbols are among the first 128 characters. So what is claimed of one of these
kinds needs a look at 128 characters only (`Text.forall_ascii`), and no other character is of any of
them.
-/

namespace PhasePortrait

namespace Text

/-- What holds of the first 128 characters holds of those that are ASCII. A claim about them is then
decided by going through all of them once. -/
theorem forall_ascii {P : Char → Prop} (h : ∀ k < 128, P (Char.ofNat k)) {c : Char}
    (hc : c.toNat < 128) : P c := by
  rw [← Char.ofNat_toNat c]
  exact h c.toNat hc

/-- A test that only characters of ASCII pass. The scanner asks such tests of bytes, and the bytes
of all other characters fail them. -/
def IsAsciiTest (test : Char → Bool) : Prop := ∀ c, test c = true → c.toNat < 128

/-- The contraposition, in the form in which a test is evaluated: on a character beyond ASCII it is
false. -/
theorem IsAsciiTest.eq_false {test : Char → Bool} (h : IsAsciiTest test) {c : Char}
    (hc : 128 ≤ c.toNat) : test c = false := by
  cases htest : test c with
  | false => rfl
  | true => exact absurd (h c htest) (Nat.not_lt.mpr hc)

/-- Digits are among the first 128 characters. Core asks for a range of numbers, so there is nothing
else to look at. -/
theorem isAsciiTest_isDigit : IsAsciiTest Char.isDigit := by
  intro c hc
  rw [Char.isDigit, Bool.and_eq_true, decide_eq_true_eq, decide_eq_true_eq] at hc
  have hle : c.toNat ≤ '9'.toNat := hc.2
  exact Nat.lt_of_le_of_lt hle (by decide)

/-- Letters are among the first 128 characters as well: core counts the letters of other alphabets
as none. -/
theorem isAsciiTest_isAlpha : IsAsciiTest Char.isAlpha := by
  intro c hc
  have hcase : (c.isUpper || c.isLower) = true := hc
  rcases Bool.or_eq_true_iff.mp hcase with hupper | hlower
  · have hle : c.toNat ≤ 'Z'.toNat := (of_decide_eq_true hupper).2
    exact Nat.lt_of_le_of_lt hle (by decide)
  · have hrange : (decide ('a'.val ≤ c.val) && decide (c.val ≤ 'z'.val)) = true := hlower
    have hle : c.toNat ≤ 'z'.toNat := of_decide_eq_true (Bool.and_eq_true_iff.mp hrange).2
    exact Nat.lt_of_le_of_lt hle (by decide)

end Text

namespace Expr.Symbol

/-- Each symbol is written with one character of ASCII, so what is looked up by symbols is decided
there. -/
theorem char_isAscii (s : Symbol) : s.char.toNat < 128 := by
  cases s <;> decide

/-- A character is read as the symbol that is written with it, and no two symbols are written
alike. -/
theorem ofChar?_eq_some {c : Char} {s : Symbol} : ofChar? c = some s ↔ s.char = c := by
  constructor
  · intro h
    have hchar : (s.char == c) = true := List.find?_some (p := fun s : Symbol => s.char == c) h
    exact eq_of_beq hchar
  · rintro rfl
    cases s <;> rfl

/-- A character that no symbol is written with is read as none. -/
theorem ofChar?_eq_none {c : Char} : ofChar? c = none ↔ ∀ s : Symbol, s.char ≠ c := by
  rw [Option.eq_none_iff_forall_ne_some]
  simp only [ne_eq, ofChar?_eq_some]

/-- A character beyond ASCII is no symbol, so a scanner passes it over. -/
theorem ofChar?_of_not_ascii {c : Char} (hc : 128 ≤ c.toNat) : ofChar? c = none := by
  rw [ofChar?_eq_none]
  rintro s rfl
  exact absurd s.char_isAscii (Nat.not_lt.mpr hc)

end Expr.Symbol

end PhasePortrait
