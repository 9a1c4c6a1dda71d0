import PhasePortrait.Decimal.Shortest

/-!
# The texts of binary64 values

Every text starts with the sign bit, zero's too, and "not a number" has no sign. The plain and the
scientific text are the shortest that read back, a tie between two of them going away from zero.
-/

namespace PhasePortrait.Binary64

/-- A text made of the sign and of what `body` makes of the parts. -/
def textWith (body : Parts → String) (x : Float) : String :=
  if x.isNaN then "NaN"
  else
    let p := parts x
    (if p.negative then "-" else "") ++ if x.isInf then "inf" else body p

/-- The shortest text without an exponent: `5`, `-0`, `0.0000001`. -/
def plain : Float → String := textWith fun p => (Decimal.shortest .away p).plain

/-- The shortest text with an exponent: `5e0`, `-2.5e-3`. -/
def scientific : Float → String := textWith fun p => (Decimal.shortest .away p).scientific

/-- The text with `count` significant digits and an exponent: `1.40e1`. -/
def significant (count : Nat) : Float → String :=
  textWith fun p => (Decimal.ofSignificant count p).scientificOf count

/-- The text with `count` places after the point: `14.00`. -/
def fixed (count : Nat) : Float → String :=
  textWith fun p => (Decimal.ofPlaces count p).fixedOf count

end PhasePortrait.Binary64

namespace PhasePortrait

instance : Numeral Float where
  text := Binary64.plain

end PhasePortrait
