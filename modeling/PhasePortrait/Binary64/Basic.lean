import PhasePortrait.Scalar

/-!
# Binary64

The double precision numbers the program computes in, as an instance of `Scalar`.

Rounding to whole numbers goes through the conversion to 64-bit words: from `2 ^ 52` on every value
is whole already. The remainder is computed exactly, in whole numbers, on the two parts of a value:
its mantissa and its power of two.
-/

namespace PhasePortrait.Binary64

/-! ## The parts of a value -/

/-- A finite value `± mantissa * 2 ^ exponent`. -/
structure Parts where
  /-- The sign bit, which zero has too. -/
  negative : Bool
  /-- Below `2 ^ 53`. -/
  mantissa : Nat
  /-- At least `-1074`. -/
  exponent : Int

/-- The bit above those of a mantissa that are stored: `2 ^ 52`. A mantissa has it unless the value
is among the smallest. -/
def leadingBit : Nat := Nat.pow 2 52

/-- The parts of a finite value, read off its bits. Infinities and "not a number" have none: test
for them first. -/
def parts (x : Float) : Parts :=
  let bits : Nat := x.toBits.toNat
  let field : Nat := bits / leadingBit % 2048
  let fraction : Nat := bits % leadingBit
  let negative := bits / (2048 * leadingBit) == 1
  if field = 0 then ⟨negative, fraction, -1074⟩
  else ⟨negative, leadingBit + fraction, (field : Int) - 1075⟩

/-- The power `2 ^ exponent`, for exponents from `-1074` to `1023`. -/
def twoTo (exponent : Int) : Float :=
  if exponent < -1022 then Float.ofBits (UInt64.ofNat (Nat.pow 2 (exponent + 1074).toNat))
  else Float.ofBits (UInt64.ofNat ((exponent + 1023).toNat * leadingBit))

/-- The value above every finite one. -/
def infinity : Float := 1.0 / 0.0

/-- The value that is not a number. -/
def notANumber : Float := 0.0 / 0.0

/-! ## Whole numbers -/

/-- From here on every value is whole. -/
def wholeFrom : Float := 4503599627370496.0

/-- The whole number between zero and the value that is nearest the value. It stops at `2 ^ 64 - 1`
on either side, and is zero for "not a number". -/
def truncate (x : Float) : Int :=
  if x < 0.0 then -((-x).toUInt64.toNat : Int) else (x.toUInt64.toNat : Int)

/-- A whole number as a value. -/
def ofInt : Int → Float
  | .ofNat n => Float.ofNat n
  | .negSucc n => -Float.ofNat (n + 1)

/-- The largest whole number not above the value. -/
def floor (x : Float) : Float :=
  if x.abs < wholeFrom then
    let whole := ofInt (truncate x)
    if x < whole then whole - 1.0 else whole
  else x

/-- The smallest whole number not below the value. -/
def ceil (x : Float) : Float :=
  if x.abs < wholeFrom then
    let whole := ofInt (truncate x)
    if whole < x then whole + 1.0 else whole
  else x

/-! ## Remainders -/

/-- The exact remainder of `|x|` by `y` for finite `x` and finite `y > 0`. -/
def remainderAbs (x y : Float) : Float :=
  if x.abs < y then x.abs
  else
    let p := parts x
    let q := parts y
    let low := min p.exponent q.exponent
    let dividend := p.mantissa * Nat.pow 2 (p.exponent - low).toNat
    let divisor := q.mantissa * Nat.pow 2 (q.exponent - low).toNat
    Float.ofNat (dividend % divisor) * twoTo low

/-- The remainder of `x` by `y > 0` with the divisor added when it is negative, so that it lies in
`[0, y]`: a tiny negative `x` rounds to the divisor itself. -/
def remainder (x y : Float) : Float :=
  let r := if x < 0.0 then -remainderAbs x y else remainderAbs x y
  if r < 0.0 then r + y else r

/-! ## Lengths -/

/-- The hypotenuse over `long ≥ short > 0` of comparable, moderate size: the rounded root of the
sum of squares, then one step of Newton's method on its exact residual. -/
def hypotModerate (long short : Float) : Float :=
  let h := (long * long + short * short).sqrt
  let residual :=
    if h ≤ 2.0 * short then
      let delta := h - short
      long * (2.0 * delta - long) + (delta - 2.0 * (long - short)) * delta
    else
      let delta := h - long
      2.0 * delta * (long - 2.0 * short) + ((4.0 * delta - short) * short + delta * delta)
  h - residual / (2.0 * h)

/-- The hypotenuse over two sides. Large and small sides are scaled by a power of two first, so
that no square overflows or vanishes; a side too short to matter is added. -/
def hypot (x y : Float) : Float :=
  let x := x.abs
  let y := y.abs
  if x.isInf || y.isInf then infinity
  else if x.isNaN || y.isNaN then x + y
  else
    let long := if x < y then y else x
    let short := if x < y then x else y
    if short ≤ long * twoTo (-54) then long + short
    else if twoTo 511 < long then
      hypotModerate (long * twoTo (-600)) (short * twoTo (-600)) * twoTo 600
    else if short < twoTo (-459) then
      hypotModerate (long * twoTo 600) (short * twoTo 600) * twoTo (-600)
    else hypotModerate long short

end PhasePortrait.Binary64

namespace PhasePortrait

instance natCastFloat : NatCast Float := ⟨Float.ofNat⟩

instance : Scalar Float where
  ltDecidable := inferInstance
  leDecidable := inferInstance
  isFinite := Float.isFinite
  abs := Float.abs
  floor := Binary64.floor
  ceil := Binary64.ceil
  truncate := Binary64.truncate
  remainder := Binary64.remainder
  sqrt := Float.sqrt

instance : Elementary Float where
  pi := 3.141592653589793
  sin := Float.sin
  cos := Float.cos
  tan := Float.tan
  exp := Float.exp
  pow := Float.pow
  hypot := Binary64.hypot
  atan2 := Float.atan2

end PhasePortrait
