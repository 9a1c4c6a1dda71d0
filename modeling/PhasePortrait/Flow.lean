import PhasePortrait.Config.Basic
import PhasePortrait.Engine
import PhasePortrait.Particle.Population

/-!
# Flows

The engine of the program: a field, the population that it moves, and the colours it is shown in.
Its scene is made anew from the population by every step, every clearing of the traces and every
resize, so it always shows the population as it is.
-/

namespace PhasePortrait

/-- A population that is moved by a field and shown in colours. -/
structure Flow where
  field : VectorField Float
  population : Population Float
  scheme : Scheme
  colors : ColorMap Float
  scene : Scene Float

namespace Flow

section View

variable {α : Type} [Scalar α] [Elementary α]

/-- The sprite of a sample on a canvas. -/
def sprite (bounds : Bounds α) (colors : ColorMap α) (width height : Nat) (s : Sample α) :
    Sprite α where
  position := bounds.toPixel s.position width height
  alpha := s.alpha
  color := colors s.velocity.angle s.alpha s.velocity.magnitude

/-- The scene of a population on a canvas. -/
def view (population : Population α) (colors : ColorMap α) (width height : Nat)
    (background : Rgb α) : Scene α where
  width
  height
  tick := population.tick
  background
  sprites := population.samples.map (sprite population.bounds colors width height)
  traces := population.traced.map fun t =>
    t.history.map fun p => population.bounds.toPixel p width height

end View

/-- The flow with its scene made anew, on a canvas of the given size. -/
def refresh (f : Flow) (width height : Nat) : Flow :=
  { f with scene := view f.population f.colors width height f.scene.background }

/-- The flow of a configuration, before the first tick. Its scene is blank. -/
def ofConfig (c : Config) : Except (SetupError Float) Flow := do
  c.check
  let params ← Params.ofJson c.params
  let population ← Population.make c.bounds params c.seed
  return {
    field := .ofTexts c.dx c.dy c.a c.b
    population := if c.trace then population.setTrace true else population
    scheme := c.scheme
    colors := c.scheme.color
    scene := .blank c.width c.height c.background }

/-- The flow with other colours, from the next scene on. -/
def withColors (f : Flow) (colors : ColorMap Float) : Flow := { f with colors }

/-- One tick. -/
def step (f : Flow) : Report × Flow :=
  let (report, population) := f.population.step f.field.velocityAt
  (report, { f with population }.refresh f.scene.width f.scene.height)

/-- Another size of the canvas; the particles are left alone. -/
def resize (f : Flow) (width height : Nat) : Except (SetupError Float) Flow := do
  checkDimensions width height
  return f.refresh width height

/-- Empties the traces. -/
def clearTraces (f : Flow) : Flow :=
  { f with population := f.population.clearTraces }.refresh f.scene.width f.scene.height

/-- The parameters of the particles, with the equations, the scheme and the traces. -/
def params (f : Flow) : Json :=
  let more := [
    ("dx", .string f.field.dx.source),
    ("dy", .string f.field.dy.source),
    ("scheme", .string f.scheme.name),
    ("trace", .bool f.population.traceEnabled)]
  match f.population.params.toJson with
  | .object members => .object (Json.putAll members more)
  | other => other

/-- What the parameters may be, with the schemes there are. -/
def schema : Json :=
  let scheme : Json := .ofMembers [
    ("type", .string "string"),
    ("default", .string Scheme.default.name),
    ("enum", .array (Scheme.all.map fun s => .string s.name)),
    ("description", .string "Built-in particle color scheme")]
  match Params.schema with
  | .object members => .object (Json.put "scheme" scheme members)
  | other => other

end Flow

instance : Engine Flow where
  step := Flow.step
  scene := Flow.scene
  resize := Flow.resize
  clearTraces := Flow.clearTraces
  params := Flow.params
  schema _ := Flow.schema

end PhasePortrait
