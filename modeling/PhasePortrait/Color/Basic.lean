import PhasePortrait.Scalar

/-!
# Colours

Colours by their red, green and blue parts, each in `[0, 1]` where a colour is to be shown, and the
same with an opacity. Laying a colour over another moves the other towards it by the opacity.
-/

namespace PhasePortrait

/-- An opaque colour. -/
structure Rgb (α : Type) where
  r : α
  g : α
  b : α
deriving DecidableEq

/-- A colour with its opacity. -/
structure Rgba (α : Type) where
  r : α
  g : α
  b : α
  a : α
deriving DecidableEq

namespace Rgb

variable {α : Type}

/-- The colour with an opacity. -/
def withAlpha (c : Rgb α) (a : α) : Rgba α := ⟨c.r, c.g, c.b, a⟩

variable [Scalar α]

/-- White. -/
def white : Rgb α := ⟨1.0, 1.0, 1.0⟩

/-- Black. -/
def black : Rgb α := ⟨0.0, 0.0, 0.0⟩

/-- The colour moved towards another by a part of the way. -/
def toward (c target : Rgb α) (part : α) : Rgb α :=
  ⟨c.r + (target.r - c.r) * part, c.g + (target.g - c.g) * part, c.b + (target.b - c.b) * part⟩

/-- Equality part by part, by the equality of the numbers. -/
def same (c d : Rgb α) : Bool := c.r == d.r && c.g == d.g && c.b == d.b

/-- The whole number from 0 to 255 that stands for a part. -/
def byte (part : α) : Nat := Scalar.roundHalfUp (Scalar.clampUnit part * 255.0)

/-- The three parts as whole numbers from 0 to 255. -/
def bytes (c : Rgb α) : List Nat := [byte c.r, byte c.g, byte c.b]

end Rgb

namespace Rgba

variable {α : Type}

/-- The colour without its opacity. -/
def rgb (c : Rgba α) : Rgb α := ⟨c.r, c.g, c.b⟩

end Rgba

end PhasePortrait
