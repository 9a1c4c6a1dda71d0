import PhasePortrait.Generator
import PhasePortrait.Point

/-!
# Bounds

The rectangle of the plane that a picture shows, and the map between its points and the pixels of a
canvas. Pixels are counted from the upper left corner, so the vertical axis is turned over: the
upper edge of the rectangle is row zero.
-/

namespace PhasePortrait

/-- A rectangle of the plane. -/
structure Bounds (α : Type) where
  xMin : α
  xMax : α
  yMin : α
  yMax : α
deriving DecidableEq

namespace Bounds

variable {α : Type} [Scalar α]

/-- From `-5` to `5` both ways. -/
def default : Bounds α := ⟨-5.0, 5.0, -5.0, 5.0⟩

/-- Whether all four numbers are finite and each lower end is below its upper end. -/
def isValid (b : Bounds α) : Bool :=
  Scalar.isFinite b.xMin && Scalar.isFinite b.xMax && Scalar.isFinite b.yMin &&
    Scalar.isFinite b.yMax && !decide (b.xMax ≤ b.xMin) && !decide (b.yMax ≤ b.yMin)

/-- The extent from left to right. -/
def width (b : Bounds α) : α := b.xMax - b.xMin

/-- The extent from bottom to top. -/
def height (b : Bounds α) : α := b.yMax - b.yMin

/-- Whether a point lies in the rectangle; its edges belong to it. -/
def contains (b : Bounds α) (p : Point α) : Bool :=
  b.xMin ≤ p.x && p.x ≤ b.xMax && b.yMin ≤ p.y && p.y ≤ b.yMax

/-- A point drawn from the rectangle, first its `x`, then its `y`. -/
def randomPoint (b : Bounds α) : Draw (Point α) := do
  let x ← Draw.between b.xMin b.xMax
  let y ← Draw.between b.yMin b.yMax
  return ⟨x, y⟩

/-- The place of a point on a canvas. -/
def toPixel (b : Bounds α) (p : Point α) (width height : Nat) : Point α :=
  ⟨(p.x - b.xMin) / b.width * (width : α), (b.yMax - p.y) / b.height * (height : α)⟩

/-- The point at a place of a canvas. -/
def ofPixel (b : Bounds α) (p : Point α) (width height : Nat) : Point α :=
  ⟨b.xMin + p.x / (width : α) * b.width, b.yMax - p.y / (height : α) * b.height⟩

/-- Equality end by end, by the equality of the numbers. -/
def same (b c : Bounds α) : Bool :=
  b.xMin == c.xMin && b.xMax == c.xMax && b.yMin == c.yMin && b.yMax == c.yMax

end Bounds

end PhasePortrait
