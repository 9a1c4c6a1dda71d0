import PhasePortrait.Raster.Brush

/-!
# Rendering

One picture is drawn over and over. Each scene first washes it thinly with the background, so that
what was drawn before fades behind what moves. A scene of another size starts a new picture, and one
whose size no picture can have leaves none.
-/

namespace PhasePortrait

/-- The picture drawn so far. -/
structure Renderer (α : Type) where
  frame : Option (Frame α)
deriving DecidableEq

namespace Renderer

variable {α : Type}

/-- Nothing is drawn yet. -/
def empty : Renderer α := ⟨none⟩

variable [Scalar α]

/-- The opacity of the wash before each scene. -/
def trailFade : α := 0.1

/-- The opacity of a trace. -/
def traceAlpha : α := 0.8

/-- Whether a picture has the size of a scene. -/
def fits (scene : Scene α) (f : Frame α) : Bool :=
  f.width == scene.width && f.height == scene.height

/-- The picture that a scene is drawn on: the one drawn so far, if it has the size of the scene. -/
def canvas (r : Renderer α) (scene : Scene α) : Option (Frame α) :=
  match r.frame.filter (fits scene) with
  | some f => some f
  | none => (Frame.filled scene.width scene.height scene.background).toOption

/-- Draws a scene on a picture. -/
def draw (scene : Scene α) (f : Frame α) : Frame α :=
  let f := f.wash scene.background trailFade
  let f := scene.visible.foldl Frame.drawSprite f
  (scene.traces.filter fun points => decide (1 < points.length)).foldl
    (fun f points => f.drawLine points (Rgb.white.withAlpha traceAlpha)) f

/-- Draws a scene. -/
def render (r : Renderer α) (scene : Scene α) : Renderer α :=
  ⟨(r.canvas scene).map (draw scene)⟩

end Renderer

end PhasePortrait
