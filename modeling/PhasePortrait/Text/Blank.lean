/-!
# Blanks

The characters that count as blank at the two ends of a text: those of the Unicode property
White_Space.
-/

namespace PhasePortrait.Text

/-- Whether a character has the property White_Space. -/
def isBlank (c : Char) : Bool :=
  let n := c.toNat
  (9 ≤ n && n ≤ 13) || n == 0x20 || n == 0x85 || n == 0xA0 || n == 0x1680 ||
    (0x2000 ≤ n && n ≤ 0x200A) || n == 0x2028 || n == 0x2029 || n == 0x202F || n == 0x205F ||
    n == 0x3000

/-- Every character that core counts as blank is one. -/
theorem isBlank_of_isWhitespace {c : Char} (h : c.isWhitespace) : isBlank c := by
  simp only [Char.isWhitespace, Bool.or_eq_true, decide_eq_true_eq] at h
  rcases h with ((rfl | rfl) | rfl) | rfl <;> rfl

/-- The letters without those at the end that a test accepts. -/
def dropEnd (test : Char → Bool) (letters : List Char) : List Char :=
  (letters.reverse.dropWhile test).reverse

/-- The letters without the blanks at both ends. -/
def trim (letters : List Char) : List Char := dropEnd isBlank (letters.dropWhile isBlank)

end PhasePortrait.Text
