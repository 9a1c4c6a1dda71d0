import PhasePortrait.Color.Scheme
import PhasePortrait.Setup.Check

/-!
# Configurations

Everything a run is determined by. An equation is not checked here: a bad one is a failure of each
tick, and not a reason to refuse the run.
-/

namespace PhasePortrait

/-- What a run is determined by. -/
structure Config where
  dx : String
  dy : String
  a : Float
  b : Float
  bounds : Bounds Float
  width : Nat
  height : Nat
  trace : Bool
  scheme : Scheme
  background : Rgb Float
  seed : UInt64
  /-- The parameters of the particles, not yet read. -/
  params : Json

/-- How a run must react to another configuration. -/
inductive Change where
  /-- Not at all. -/
  | unchanged
  /-- The canvas has another size. -/
  | resize
  /-- Anything else is different. -/
  | restart
deriving DecidableEq, Repr

/-- The word for a reaction. -/
def Change.name : Change → String
  | unchanged => "Unchanged"
  | resize => "Resize"
  | restart => "Restart"

namespace Config

/-- The configuration that is taken where nothing is given. -/
def default : Config where
  dx := "a*x*(1-x)*(x-1) -y + 2.1"
  dy := "b*y*(1-y)*(1-x)"
  a := 4.0
  b := 1.5
  bounds := .default
  width := 800
  height := 600
  trace := false
  scheme := .default
  background := ⟨0.0, 0.0, 20.0 / 255.0⟩
  seed := 42
  params := .object []

/-- Refuses a parameter of the equations that is not finite. -/
def checkFinite (name : String) (value : Float) : Except (SetupError Float) Unit :=
  if value.isFinite then .ok () else .error (.invalidParameter name (.notFinite value))

/-- Refuses a configuration that no run can start from, as far as it can be told before the
parameters of the particles are read. -/
def check (c : Config) : Except (SetupError Float) Unit := do
  c.bounds.check
  checkDimensions c.width c.height
  checkFinite "a" c.a
  checkFinite "b" c.b
  if c.params.isObject || c.params.isNull then .ok ()
  else .error (.invalidParameter "params" (.notAnObject c.params))

/-- Whether two configurations agree in all but the size of the canvas, by the equality of
numbers. -/
def sameButSize (c d : Config) : Bool :=
  c.dx == d.dx && c.dy == d.dy && c.a == d.a && c.b == d.b && c.bounds.same d.bounds &&
    c.trace == d.trace && c.scheme == d.scheme && c.background.same d.background &&
    c.seed == d.seed && c.params.same d.params

/-- Whether two configurations have the same size of the canvas. -/
def sameSize (c d : Config) : Bool := c.width == d.width && c.height == d.height

/-- How a run of this configuration must react to the next one. -/
def changeTo (c next : Config) : Change :=
  if !c.sameButSize next then .restart
  else if c.sameSize next then .unchanged
  else .resize

end Config

end PhasePortrait
