import PhasePortrait.Binary64.Read
import PhasePortrait.Binary64.Scale
import PhasePortrait.Decimal.Basic
import PhasePortrait.Json.Basic

/-!
# Numbers as they are written

A whole number that 64 bits hold stands for itself. Any other number is read the quick way: as many
digits as 64 bits hold are taken for one whole number, and its value is scaled by the power of ten
that is left. Each step rounds, so the last digits of the result may differ from those written:
`1e-23` reads as `1.0000000000000001e-23`.
-/

namespace PhasePortrait

/-- A number as it is written: the digits before and after the point, and the exponent if one is
marked. -/
structure Json.Literal where
  negative : Bool
  whole : List Char
  fraction : List Char
  exponent : Option Int

namespace Json.Literal

/-- The whole number with further digits behind its own, as long as 64 bits hold it, and the digits
that did not fit. -/
def takeDigits (n : Nat) : List Char → Nat × List Char
  | [] => (n, [])
  | c :: rest =>
    let longer := 10 * n + Binary64.digitsValue [c]
    if longer < UInt64.size then takeDigits longer rest else (n, c :: rest)

/-- The decimal that is taken of a number. A digit before the point that does not fit still counts
for its place; one after the point is dropped. The digits after the point are taken behind those
before it, whether or not all of these fitted. -/
def decimal (n : Literal) : Decimal :=
  let (digits, beyond) := takeDigits 0 n.whole
  let (digits, dropped) := takeDigits digits n.fraction
  ⟨digits, n.exponent.getD 0 + beyond.length - (n.fraction.length - dropped.length : Nat)⟩

/-- Whether a number is written as a whole one: without a point and without an exponent. -/
def isWhole (n : Literal) : Bool := n.fraction.isEmpty && n.exponent.isNone

/-- The value of a number: a whole one where 64 bits hold it, and a finite binary64 value
otherwise. -/
def number? (n : Literal) : Option Number :=
  let d := n.decimal
  let fits := n.isWhole && d.exponent == 0
  if fits && !n.negative then some (.natural d.digits)
  else if fits && 0 < d.digits && d.digits ≤ UInt64.size / 2 then some (.negative d.digits)
  else (Binary64.scaleByTen? (Float.ofNat d.digits) d.exponent).map fun size =>
    .real (if n.negative then -size else size)

end Json.Literal

end PhasePortrait
