import PhasePortrait.Scene
import PhasePortrait.Setup.Check

/-!
# Frames

A picture as rows of opaque pixels, from the top. A place outside the picture has no index, so
drawing there does nothing.
-/

namespace PhasePortrait

/-- A picture. -/
structure Frame (α : Type) where
  width : Nat
  height : Nat
  /-- The pixels, row by row. -/
  pixels : Array (Rgb α)
deriving DecidableEq

/-- The pixels of some columns and rows, both ends included. -/
structure Box where
  left : Nat
  top : Nat
  right : Nat
  bottom : Nat
deriving DecidableEq, Repr

/-- The whole numbers from `first` to `last`, both included. -/
def span (first last : Nat) : List Nat := List.range' first (last + 1 - first)

/-- The places of a box, row by row. -/
def Box.cells (box : Box) : List (Nat × Nat) :=
  (span box.top box.bottom).flatMap fun y => (span box.left box.right).map fun x => (x, y)

/-- The centre of the pixel at a column and a row. -/
def pixelCenter {α : Type} [Scalar α] (cell : Nat × Nat) : Point α :=
  ⟨(cell.1 : α) + 0.5, (cell.2 : α) + 0.5⟩

namespace Frame

variable {α : Type}

/-- The index of the pixel at a place of the picture. -/
def index? (f : Frame α) (cell : Nat × Nat) : Option Nat :=
  if cell.1 < f.width ∧ cell.2 < f.height then some (cell.2 * f.width + cell.1) else none

/-- The pixel at a place. -/
def get? (f : Frame α) (cell : Nat × Nat) : Option (Rgb α) :=
  (f.index? cell).bind fun i => f.pixels[i]?

/-- The picture with a pixel changed; without an index there is nothing to change. -/
def update (f : Frame α) (change : Rgb α → Rgb α) : Option Nat → Frame α
  | none => f
  | some i => { f with pixels := f.pixels.modify i change }

variable [Scalar α]

/-- A picture of one colour, with pixels and not too many. -/
def filled (width height : Nat) (color : Rgb α) : Except (SetupError α) (Frame α) := do
  checkDimensions width height
  return { width, height, pixels := Array.replicate (width * height) color }

/-- Lays a colour over the pixel at a place. -/
def blend (f : Frame α) (color : Rgba α) (cell : Nat × Nat) : Frame α :=
  f.update (fun c => c.toward color.rgb (Scalar.clampUnit color.a)) (f.index? cell)

/-- Lays a colour over every pixel. -/
def wash (f : Frame α) (color : Rgb α) (opacity : α) : Frame α :=
  { f with pixels := f.pixels.map fun c => c.toward color opacity }

/-- The pixels of the picture that a rectangle touches, if there are any. An end that is no number
is that of the picture. -/
def clip (f : Frame α) (low high : Point α) : Option Box :=
  let left := Scalar.larger (Scalar.floor low.x) (0.0 : α)
  let top := Scalar.larger (Scalar.floor low.y) (0.0 : α)
  let right := Scalar.smaller (Scalar.ceil high.x) ((f.width : α) - 1.0)
  let bottom := Scalar.smaller (Scalar.ceil high.y) ((f.height : α) - 1.0)
  if left ≤ right ∧ top ≤ bottom then
    some {
      left := (Scalar.truncate left).toNat
      top := (Scalar.truncate top).toNat
      right := (Scalar.truncate right).toNat
      bottom := (Scalar.truncate bottom).toNat }
  else none

/-- The places of the picture that a rectangle touches. -/
def cellsIn (f : Frame α) (low high : Point α) : List (Nat × Nat) :=
  match f.clip low high with
  | some box => box.cells
  | none => []

/-- The bytes of the pixels: red, green, blue and full opacity of each. -/
def rgbaBytes (f : Frame α) : List Nat := f.pixels.toList.flatMap fun c => c.bytes ++ [255]

end Frame

end PhasePortrait
