import PhasePortrait.Raster.Frame
import Std.Data.HashSet.Basic

/-!
# Brushes

The two things that are drawn. A sprite is a dot with a glow around it that fades with the distance.
A trace is a line through points, of which every pixel is covered once, however many of its segments
pass over it.

Either only visits the pixels near it. A pixel is near by its centre.
-/

namespace PhasePortrait.Frame

variable {α : Type} [Scalar α]

/-- The radius of a dot, in pixels. -/
def dotRadius : α := 1.5

/-- The radius at which the glow has faded, in pixels. -/
def glowRadius : α := 4.0

/-- The width of a trace, in pixels. -/
def traceWidth : α := 2.0

/-- Lays the colour of a sprite over a pixel at a distance: in full on the dot, and once more by
what the glow has there. -/
def shade (color : Rgba α) (distance : α) (f : Frame α) (cell : Nat × Nat) : Frame α :=
  let f := if distance ≤ dotRadius then f.blend color cell else f
  if distance < glowRadius then
    f.blend { color with a := color.a * (1.0 - distance / glowRadius) } cell
  else f

/-- Draws a sprite. -/
def drawSprite (f : Frame α) (sprite : Sprite α) : Frame α :=
  let p := sprite.position
  let low : Point α := ⟨p.x - glowRadius, p.y - glowRadius⟩
  let high : Point α := ⟨p.x + glowRadius, p.y + glowRadius⟩
  (f.cellsIn low high).foldl
    (fun f cell => f.shade sprite.color ((pixelCenter cell).distance p) cell) f

/-- The distance of a point from the segment between two points. -/
def segmentDistance (p a b : Point α) : α :=
  let along := b - a
  let square := along.dot along
  if square == 0.0 then p.distance a
  else
    let t := Scalar.clampUnit ((p - a).dot along / square)
    p.distance (a + along.scale t)

/-- The pixels that the stroke of a segment covers. -/
def strokeCells (f : Frame α) (a b : Point α) : List (Nat × Nat) :=
  let half : α := traceWidth / 2.0
  let low := a.lowest b
  let high := a.highest b
  (f.cellsIn ⟨low.x - half, low.y - half⟩ ⟨high.x + half, high.y + half⟩).filter fun cell =>
    decide (segmentDistance (pixelCenter cell) a b ≤ half)

/-- The pixels that the strokes between the points of a line cover, those of several segments
several times. -/
def lineCells (f : Frame α) (points : List (Point α)) : List (Nat × Nat) :=
  (points.zip points.tail).flatMap fun segment => f.strokeCells segment.1 segment.2

/-- Draws a line through points. -/
def drawLine (f : Frame α) (points : List (Point α)) (color : Rgba α) : Frame α :=
  (Std.HashSet.ofList (f.lineCells points)).toList.foldl (fun f cell => f.blend color cell) f

end PhasePortrait.Frame
