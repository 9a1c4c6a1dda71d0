import PhasePortrait.Setup.Check

/-!
# Parameters of the particles

How many particles there are, how long they live and how they move. The parameters are read from an
object in which any may be missing, and they describe themselves in a schema.
-/

namespace PhasePortrait

/-- The parameters of the particles. Times are counted in ticks. -/
structure Params (α : Type) where
  /-- The size of the population. -/
  particleCount : Nat
  /-- The age after which a particle is due for rebirth. -/
  maxAge : Nat
  /-- The ages at which particles have faded in are below this. -/
  fadeIn : Nat
  /-- How long before `maxAge` a particle starts to fade out. -/
  fadeOut : Nat
  /-- A particle may be reborn in one of this many ticks. -/
  recycleStride : Nat
  /-- The opacity at which a particle is due for rebirth. -/
  recycleAlpha : α
  /-- The factor on the opacity per tick spent outside the bounds. -/
  exitDecay : α
  /-- The step of time. -/
  dt : α
  /-- The scale of a step against the speed. -/
  stepScale : α
  /-- The number of particles that leave a trace. -/
  traceCount : Nat
  /-- The number of points of a trace. -/
  traceLength : Nat
deriving DecidableEq

namespace Params

/-- The largest population. -/
def maxParticleCount : Nat := 1000000

/-- The largest number of traces. -/
def maxTraceCount : Nat := 10000

/-- The longest trace. -/
def maxTraceLength : Nat := 100000

section Check

variable {α : Type} [Scalar α]

/-- The parameters that are taken where none are given. -/
def default : Params α where
  particleCount := 8000
  maxAge := 300
  fadeIn := 30
  fadeOut := 30
  recycleStride := 10
  recycleAlpha := 0.01
  exitDecay := 0.95
  dt := 0.01
  stepScale := 2.0
  traceCount := 20
  traceLength := 100

/-- Refuses a parameter unless a condition holds. -/
def require (condition : Bool) (name : String) (fault : Fault α) : Except (SetupError α) Unit :=
  if condition then .ok () else .error (.invalidParameter name fault)

/-- Whether a number is in `[0, 1]`. -/
def isPart (x : α) : Bool := (0.0 : α) ≤ x && x ≤ 1.0

/-- Refuses parameters out of their range. -/
def check (p : Params α) : Except (SetupError α) Unit := do
  require (p.particleCount ≤ maxParticleCount) "particle_count"
    (.overLimit maxParticleCount p.particleCount)
  require (p.traceCount ≤ maxTraceCount) "trace_count" (.overLimit maxTraceCount p.traceCount)
  require (p.traceLength ≤ maxTraceLength) "trace_length" (.overLimit maxTraceLength p.traceLength)
  require (p.fadeOut ≤ p.maxAge) "fade_out" (.longerThanLife p.maxAge p.fadeOut)
  require (p.recycleStride != 0) "recycle_stride" .zero
  require (isPart p.recycleAlpha) "recycle_alpha" (.notAPart p.recycleAlpha)
  require (isPart p.exitDecay) "exit_decay" (.notAPart p.exitDecay)
  require (Scalar.isFinite p.dt && !decide (p.dt ≤ 0.0)) "dt" (.notPositive p.dt)
  require (Scalar.isFinite p.stepScale && !decide (p.stepScale < 0.0)) "step_scale"
    (.negative p.stepScale)

end Check

/-- The members of an object as parameters; one that is missing or `null` has its default. -/
def read (params : Json) : Except (SetupError Float) (Params Float) := do
  let base : Params Float := default
  return {
    particleCount := ← params.countOr "particle_count" base.particleCount
    maxAge := ← params.wordOr "max_age" base.maxAge
    fadeIn := ← params.wordOr "fade_in" base.fadeIn
    fadeOut := ← params.wordOr "fade_out" base.fadeOut
    recycleStride := ← params.wordOr "recycle_stride" base.recycleStride
    recycleAlpha := ← params.numberOr "recycle_alpha" base.recycleAlpha
    exitDecay := ← params.numberOr "exit_decay" base.exitDecay
    dt := ← params.numberOr "dt" base.dt
    stepScale := ← params.numberOr "step_scale" base.stepScale
    traceCount := ← params.countOr "trace_count" base.traceCount
    traceLength := ← params.countOr "trace_length" base.traceLength }

/-- The parameters of an object, all of them in their ranges. -/
def ofJson (params : Json) : Except (SetupError Float) (Params Float) := do
  let p ← read params
  p.check
  return p

/-- The parameters as an object. -/
def toJson (p : Params Float) : Json := .ofMembers [
  ("particle_count", .natural p.particleCount),
  ("max_age", .natural p.maxAge),
  ("fade_in", .natural p.fadeIn),
  ("fade_out", .natural p.fadeOut),
  ("recycle_stride", .natural p.recycleStride),
  ("recycle_alpha", .real p.recycleAlpha),
  ("exit_decay", .real p.exitDecay),
  ("dt", .real p.dt),
  ("step_scale", .real p.stepScale),
  ("trace_count", .natural p.traceCount),
  ("trace_length", .natural p.traceLength)]

/-- The schema of a whole number from `min` on. -/
def countSchema (default min : Nat) (limit : List (String × Json)) (description : String) : Json :=
  .ofMembers ([
    ("type", .string "integer"),
    ("default", .natural default),
    ("min", .natural min),
    ("description", .string description)] ++ limit)

/-- The schema of a number from zero on. -/
def numberSchema (default : Float) (limit : List (String × Json)) (description : String) : Json :=
  .ofMembers ([
    ("type", .string "number"),
    ("default", .real default),
    ("min", .real 0.0),
    ("description", .string description)] ++ limit)

/-- What each parameter is, its default and its range. -/
def schema : Json :=
  let base : Params Float := default
  let upTo (limit : Nat) : List (String × Json) := [("max", .natural limit)]
  let upToOne : List (String × Json) := [("max", .real 1.0)]
  .ofMembers [
    ("particle_count", countSchema base.particleCount 0 (upTo maxParticleCount)
      "Live particles, spawned once and recycled in place"),
    ("max_age", countSchema base.maxAge 0 []
      "Age in ticks after which a particle is recycled"),
    ("fade_in", countSchema base.fadeIn 0 []
      "Exclusive upper bound of each particle's random fade-in age"),
    ("fade_out", countSchema base.fadeOut 0 []
      "Ticks before max_age over which alpha falls to zero"),
    ("recycle_stride", countSchema base.recycleStride 1 []
      "Recycle particle i only on ticks where tick % stride == i % stride"),
    ("recycle_alpha", numberSchema base.recycleAlpha upToOne
      "Alpha at or below which a particle is recycled"),
    ("exit_decay", numberSchema base.exitDecay upToOne
      "Alpha multiplier per consecutive tick outside the bounds"),
    ("dt", numberSchema base.dt [] "Integration step in field units"),
    ("step_scale", numberSchema base.stepScale []
      "Speed damping numerator: step = v * step_scale / (1 + |v|) * dt"),
    ("trace_count", countSchema base.traceCount 0 (upTo maxTraceCount)
      "Traced particles while trace mode is on"),
    ("trace_length", countSchema base.traceLength 0 (upTo maxTraceLength)
      "History points kept per traced particle")]

end Params

end PhasePortrait
