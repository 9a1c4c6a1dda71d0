/-!
# Scalars

The arithmetic that fields, colours and pictures are computed in, as classes. The program runs in
binary64 (`PhasePortrait.Binary64`); a statement about exact arithmetic is a statement about
another instance of the same classes, so one definition serves both.

No law is assumed here. Each operation is named for what it computes, and where rounding or a value
that is not a number could make two spellings differ, the order of the operations is the definition.
-/

namespace PhasePortrait

/-- Numbers with the four operations, a decidable order and rounding to whole numbers.

The comparisons are those of the instance: in binary64 a value that is not a number is neither
below, equal to nor above anything. -/
class Scalar (α : Type) extends
    Add α, Sub α, Mul α, Div α, Neg α, OfScientific α, NatCast α, LT α, LE α, BEq α where
  /-- The strict order is decidable. -/
  ltDecidable : DecidableLT α
  /-- The order is decidable. -/
  leDecidable : DecidableLE α
  /-- Neither infinite nor "not a number". -/
  isFinite : α → Bool
  /-- The distance from zero. -/
  abs : α → α
  /-- The largest whole number not above the value. -/
  floor : α → α
  /-- The smallest whole number not below the value. -/
  ceil : α → α
  /-- The whole number between zero and the value that is nearest the value. -/
  truncate : α → Int
  /-- The remainder, not negative, of a division by a positive value. -/
  remainder : α → α → α
  /-- The square root. -/
  sqrt : α → α

instance decidableLT {α : Type} [Scalar α] : DecidableLT α := Scalar.ltDecidable

instance decidableLE {α : Type} [Scalar α] : DecidableLE α := Scalar.leDecidable

/-- The elementary functions that equations, speeds and directions are written with. -/
class Elementary (α : Type) where
  /-- The ratio of a circle's circumference to its diameter. -/
  pi : α
  /-- The sine of an angle in radians. -/
  sin : α → α
  /-- The cosine of an angle in radians. -/
  cos : α → α
  /-- The tangent of an angle in radians. -/
  tan : α → α
  /-- The exponential. -/
  exp : α → α
  /-- The first value to the power of the second. -/
  pow : α → α → α
  /-- The length of the hypotenuse over two sides. -/
  hypot : α → α → α
  /-- `atan2 y x` is the direction of the point `(x, y)` seen from the origin, in radians. -/
  atan2 : α → α → α

/-- Numbers that have a text: what an equation or a message shows for a value. -/
class Numeral (α : Type) where
  /-- The plain decimal text of a value, without an exponent. -/
  text : α → String

namespace Scalar

variable {α : Type} [Scalar α]

/-- The value moved into `[low, high]`. A value that compares with neither end stays. -/
def clamp (low high x : α) : α :=
  if x < low then low else if high < x then high else x

/-- The value moved into `[0, 1]`. -/
def clampUnit (x : α) : α := clamp 0.0 1.0 x

/-- The smaller of two values; of a number and a value that is not one, the number. -/
def smaller (x y : α) : α :=
  if x < y then x else if y == y then y else x

/-- The larger of two values; of a number and a value that is not one, the number. -/
def larger (x y : α) : α :=
  if y < x then x else if y == y then y else x

/-- `powerFrom acc x n` multiplies `acc` by `x` to the power `n`, squaring `x` once per binary
digit of `n`. -/
def powerFrom (acc x : α) (n : Nat) : α :=
  if n = 0 then acc
  else powerFrom (if n % 2 = 1 then acc * x else acc) (x * x) (n / 2)
termination_by n

/-- A whole power, by repeated squaring. -/
def power (x : α) (n : Nat) : α := powerFrom 1.0 x n

/-- The whole number nearest a value that is not negative; halves go up. -/
def roundHalfUp (x : α) : Nat :=
  let whole := (truncate x).toNat
  if 0.5 ≤ x - (whole : α) then whole + 1 else whole

end Scalar

end PhasePortrait
