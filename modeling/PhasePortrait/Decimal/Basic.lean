/-!
# Decimals

A decimal is a whole number of powers of ten. Its digits are laid out in two ways: plainly, with as
many zeros as the position of the point asks for, or with one digit before the point and an
exponent. Which of the two a format uses is the format's choice and not made here.
-/

namespace PhasePortrait

/-- The decimal `digits * 10 ^ exponent`. -/
structure Decimal where
  /-- The digits, read as one whole number. -/
  digits : Nat
  /-- The power of ten of the last digit. -/
  exponent : Int
deriving DecidableEq, Repr

namespace Decimal

/-- The characters of the digits, the first one not zero unless the decimal is. -/
def digitChars (d : Decimal) : List Char := Nat.toDigits 10 d.digits

/-- Where the point stands, counted from before the first digit: `0.ddd * 10 ^ point`. -/
def point (d : Decimal) : Int := d.digitChars.length + d.exponent

/-- A count of zeros. -/
def zeros (n : Nat) : List Char := List.replicate n '0'

/-- Digits with a point after the first `n`; none if no digit follows. -/
def pointAfter (n : Nat) (digits : List Char) : List Char :=
  match digits.drop n with
  | [] => digits.take n
  | rest => digits.take n ++ '.' :: rest

/-- The text without an exponent: `1200`, `12.5`, `0.00125`. -/
def plain (d : Decimal) : String :=
  let digits := d.digitChars
  String.ofList <|
    if d.point ≤ 0 then '0' :: '.' :: zeros (-d.point).toNat ++ digits
    else if digits.length ≤ d.point.toNat then digits ++ zeros (d.point.toNat - digits.length)
    else pointAfter d.point.toNat digits

/-- One digit before the point, then the exponent after the mark `e`, with its sign if negative:
`1.25e-3`, `5e0`. -/
def scientific (d : Decimal) : String :=
  String.ofList (pointAfter 1 d.digitChars) ++ "e" ++ toString (d.point - 1)

/-- The same decimal without zeros at its end; zero keeps one digit. -/
def stripZeros (d : Decimal) : Decimal :=
  if d.digits = 0 then ⟨0, 0⟩
  else if d.digits % 10 = 0 then stripZeros ⟨d.digits / 10, d.exponent + 1⟩ else d
termination_by d.digits
decreasing_by omega

end Decimal

end PhasePortrait
