import PhasePortrait.Decimal.Rounding

/-!
# Shortest decimals

The fewest digits that read back to a value. A finite value is what every real of an interval
around it rounds to; the interval reaches half-way to the two neighbours, and holds its ends exactly
when the mantissa is even. For one digit, two digits and so on, the points of that decimal grid on
either side of the value are tested, and the first grid with a point in the interval is taken. If
both points lie in it the nearer one is, and a tie is the format's to decide.

Seventeen digits always suffice, so the search ends there.
-/

namespace PhasePortrait.Decimal

/-- Which of two equally near decimals is taken. -/
inductive Tie where
  /-- The one farther from zero. -/
  | away
  /-- The one whose last digit is even. -/
  | even
deriving DecidableEq

/-- The positive reals that round to a value, as numerators over one denominator. -/
structure Interval where
  /-- The value itself. -/
  value : Nat
  /-- Half-way to the neighbour below. -/
  low : Nat
  /-- Half-way to the neighbour above. -/
  high : Nat
  /-- The common denominator. -/
  unit : Nat
  /-- Whether the two ends belong to the interval. -/
  closed : Bool

/-- The interval of a positive finite value. The neighbour below a power of two is half as far as
the one above it, unless the value is among the smallest. -/
def Interval.ofParts (p : Binary64.Parts) : Interval :=
  let quarter := p.exponent - 2
  let scale := Nat.pow 2 quarter.toNat
  let below := if p.mantissa = Binary64.leadingBit ∧ -1074 < p.exponent then 1 else 2
  { value := 4 * p.mantissa * scale
    low := (4 * p.mantissa - below) * scale
    high := (4 * p.mantissa + 2) * scale
    unit := Nat.pow 2 (-quarter).toNat
    closed := p.mantissa % 2 == 0 }

/-- Whether `a ≤ b` or, in an open interval, `a < b`. -/
def Interval.within (i : Interval) (a b : Nat) : Bool :=
  if i.closed then a ≤ b else a < b

/-- The point of the grid of `10 ^ exponent` that stands for the value, if one lies in the
interval. -/
def Interval.onGrid? (i : Interval) (tie : Tie) (exponent : Int) : Option Nat :=
  let up := Nat.pow 10 (-exponent).toNat
  let step := i.unit * Nat.pow 10 exponent.toNat
  let below := i.value * up / step
  let lower := i.within (i.low * up) (below * step)
  let upper := i.within ((below + 1) * step) (i.high * up)
  let twice := 2 * (i.value * up)
  let middle := (2 * below + 1) * step
  match lower, upper with
  | false, false => none
  | true, false => some below
  | false, true => some (below + 1)
  | true, true =>
    if twice < middle then some below
    else if middle < twice then some (below + 1)
    else match tie with
      | .away => some (below + 1)
      | .even => some (below + below % 2)

/-- The search from the grid of `10 ^ exponent` on, through as many finer grids as `more` says. -/
def Interval.search (i : Interval) (tie : Tie) : (more : Nat) → (exponent : Int) → Decimal
  | 0, exponent =>
    ⟨i.value * Nat.pow 10 (-exponent).toNat / (i.unit * Nat.pow 10 exponent.toNat), exponent⟩
  | more + 1, exponent =>
    match i.onGrid? tie exponent with
    | some digits => ⟨digits, exponent⟩
    | none => i.search tie more (exponent - 1)

/-- The shortest decimal of a finite value, its sign left out. -/
def shortest (tie : Tie) (p : Binary64.Parts) : Decimal :=
  if p.mantissa = 0 then ⟨0, 0⟩
  else
    let i := Interval.ofParts p
    (i.search tie 17 (magnitude i.value i.unit - 1)).stripZeros

end PhasePortrait.Decimal
