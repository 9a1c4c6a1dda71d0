import PhasePortrait.Binary64.Basic

/-!
# Scaling by powers of ten

A value times a power of ten, in binary64 arithmetic alone: the power is rounded, and then the
product or the quotient is. So the result is near the exact one, and need not be the nearest value
to it. A negative power is divided out and not multiplied in, since `10 ^ n` is a binary64 value for
the small `n` and `10 ^ -n` is for none.
-/

namespace PhasePortrait.Binary64

/-- The largest `n` for which `10 ^ n` is in the range of the format. -/
def largestTen : Nat := 308

/-- The value nearest `10 ^ n`, for `n` up to `largestTen`. -/
def tenTo (n : Nat) : Float := OfScientific.ofScientific 1 false n

/-- The product `x * 10 ^ n`, if it is in the range of the format. -/
def timesTenTo? (x : Float) (n : Nat) : Option Float :=
  if x == 0.0 then some x
  else if n ≤ largestTen then
    let product := x * tenTo n
    if product.isFinite then some product else none
  else none

/-- The quotient `x / 10 ^ n`. A power beyond the range of the format is divided out in steps, each
of which rounds. -/
def overTenTo (x : Float) (n : Nat) : Float :=
  if n ≤ largestTen then x / tenTo n
  else if x == 0.0 then x
  else overTenTo (x / tenTo largestTen) (n - largestTen)
termination_by n
decreasing_by simp only [largestTen] at *; omega

/-- The value `x * 10 ^ exponent`, if it is in the range of the format. -/
def scaleByTen? (x : Float) (exponent : Int) : Option Float :=
  if exponent < 0 then some (overTenTo x (-exponent).toNat) else timesTenTo? x exponent.toNat

end PhasePortrait.Binary64
