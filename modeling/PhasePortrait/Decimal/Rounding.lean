import PhasePortrait.Binary64.Basic
import PhasePortrait.Decimal.Basic

/-!
# Rounding to a decimal grid

The decimal texts of a fixed length: a count of significant digits, or a count of places. Both round
the exact value of a number to the nearest point of a decimal grid, and a value halfway between two
points goes to the even one.
-/

namespace PhasePortrait.Decimal

/-- The whole number nearest `num / den`; a half goes to the even neighbour. -/
def roundHalfEven (num den : Nat) : Nat :=
  let whole := num / den
  let rest := 2 * (num % den)
  if rest < den then whole
  else if den < rest then whole + 1
  else whole + whole % 2

/-- The count of digits before the point of a positive quotient: the `k` with
`10 ^ (k - 1) ≤ num / den < 10 ^ k`. -/
def magnitude (num den : Nat) : Int :=
  if den ≤ num then (Nat.toDigits 10 (num / den)).length
  else 1 - ((Nat.toDigits 10 ((den - 1) / num)).length : Int)

/-- A finite value as a quotient of whole numbers, its sign left out. -/
def quotient (p : Binary64.Parts) : Nat × Nat :=
  (p.mantissa * Nat.pow 2 p.exponent.toNat, Nat.pow 2 (-p.exponent).toNat)

/-- The positive quotient `num / den` on the grid of `10 ^ exponent`. -/
def onGrid (num den : Nat) (exponent : Int) : Decimal :=
  ⟨roundHalfEven (num * Nat.pow 10 (-exponent).toNat) (den * Nat.pow 10 exponent.toNat), exponent⟩

/-- A finite value rounded to `count` significant digits. A carry over the first digit leaves one
digit more, which is zero. -/
def ofSignificant (count : Nat) (p : Binary64.Parts) : Decimal :=
  if p.mantissa = 0 then ⟨0, 0⟩
  else
    let (num, den) := quotient p
    onGrid num den (magnitude num den - count)

/-- A finite value rounded to `count` places after the point. -/
def ofPlaces (count : Nat) (p : Binary64.Parts) : Decimal :=
  let (num, den) := quotient p
  onGrid num den (-(count : Int))

/-- One digit before the point and `count` digits in all, then the exponent. -/
def scientificOf (count : Nat) (d : Decimal) : String :=
  let digits := (d.digitChars ++ zeros count).take count
  String.ofList (pointAfter 1 digits) ++ "e" ++ toString (d.point - 1)

/-- At least one digit before the point and exactly `count` after it, of a decimal on the grid of
`10 ^ -count`. -/
def fixedOf (count : Nat) (d : Decimal) : String :=
  let digits := d.digitChars
  let padded := zeros (count + 1 - digits.length) ++ digits
  String.ofList (pointAfter (padded.length - count) padded)

end PhasePortrait.Decimal
