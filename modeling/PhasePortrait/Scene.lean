import PhasePortrait.Color.Basic
import PhasePortrait.Point

/-!
# Scenes

What there is to be drawn after a tick, with all places in pixels of the canvas.
-/

namespace PhasePortrait

/-- A live particle to be drawn. -/
structure Sprite (α : Type) where
  position : Point α
  alpha : α
  color : Rgba α
deriving DecidableEq

/-- What there is to be drawn. -/
structure Scene (α : Type) where
  width : Nat
  height : Nat
  tick : Nat
  background : Rgb α
  sprites : List (Sprite α)
  /-- One line per traced particle: its history, oldest point first. -/
  traces : List (List (Point α))
deriving DecidableEq

namespace Scene

variable {α : Type}

/-- A canvas before the first tick. -/
def blank (width height : Nat) (background : Rgb α) : Scene α :=
  { width, height, tick := 0, background, sprites := [], traces := [] }

/-- The sprites that can be seen. -/
def visible [Scalar α] (s : Scene α) : List (Sprite α) :=
  s.sprites.filter fun sprite => decide ((0.0 : α) < sprite.alpha)

end Scene

end PhasePortrait
