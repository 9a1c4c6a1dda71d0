import PhasePortrait.Particle.Params
import PhasePortrait.Report

/-!
# Particles

A particle is born somewhere in the bounds, fades in, is moved by the field, fades out and is due
for rebirth. Its opacity follows its age, times a decay for each tick in a row that it spends
outside the bounds. Counters stop at the largest 32-bit word.
-/

namespace PhasePortrait

/-- A live particle. -/
structure Particle (α : Type) where
  /-- Where it is. -/
  position : Point α
  /-- The ticks since its birth. -/
  age : Nat
  /-- The age at which it has faded in. -/
  fadeInAge : Nat
  /-- The ticks in a row that it has spent outside the bounds. -/
  ticksOutside : Nat
deriving DecidableEq

/-- The largest value of a counter. -/
def counterLimit : Nat := UInt32.size - 1

/-- The counter after one more tick. -/
def countTick (n : Nat) : Nat := if n < counterLimit then n + 1 else counterLimit

section Life

variable {α : Type} [Scalar α]

/-- The opacity of an age: it rises to one while fading in, stays there, and falls to zero over the
last `fadeOut` ticks before `maxAge`. A ramp of length zero is a step. -/
def lifecycleAlpha (age fadeInAge maxAge fadeOut : Nat) : α :=
  let alpha : α :=
    if age ≤ fadeInAge then
      if fadeInAge = 0 then 1.0 else (age : α) / (fadeInAge : α)
    else if maxAge - fadeOut < age then
      if fadeOut = 0 then 0.0 else ((maxAge : α) - (age : α)) / (fadeOut : α)
    else 1.0
  Scalar.clampUnit alpha

namespace Particle

/-- A particle of age zero, somewhere in the bounds. -/
def reborn (bounds : Bounds α) (params : Params α) : Draw (Particle α) := do
  let position ← bounds.randomPoint
  let fadeInAge ← Draw.below params.fadeIn
  return ⟨position, 0, fadeInAge, 0⟩

/-- A particle of any age below the largest, somewhere in the bounds. -/
def spawn (bounds : Bounds α) (params : Params α) : Draw (Particle α) := do
  let p ← reborn bounds params
  let age ← Draw.below params.maxAge
  return { p with age }

/-- The opacity that the age alone gives. -/
def ageAlpha (p : Particle α) (params : Params α) : α :=
  lifecycleAlpha p.age p.fadeInAge params.maxAge params.fadeOut

/-- The opacity the particle is shown with. -/
def alpha (p : Particle α) (params : Params α) : α :=
  let decay := Scalar.power params.exitDecay (min p.ticksOutside (UInt32.size / 2 - 1))
  Scalar.clampUnit (p.ageAlpha params * decay)

/-- Whether the particle is due for rebirth: too old, or too faint. -/
def expired (p : Particle α) (alpha : α) (params : Params α) : Bool :=
  params.maxAge < p.age || alpha ≤ params.recycleAlpha

end Particle

variable [Elementary α]

/-- The way a velocity moves a particle in one tick. The faster it is, the more it is damped, so
that no particle is flung across the picture. -/
def displacement (v : Velocity α) (params : Params α) : Point α :=
  let scale := params.stepScale / (1.0 + v.magnitude)
  Point.scale ⟨v.vx, v.vy⟩ (scale * params.dt)

/-- The place that an answer takes a particle to. -/
def Answer.moved (answer : Answer α) (params : Params α) (p : Point α) : Point α :=
  match answer.velocity? with
  | some v => p + displacement v params
  | none => p

/-- The particle one tick later: moved as the answer says, older, and its ticks outside counted. -/
def Particle.advance (p : Particle α) (answer : Answer α) (bounds : Bounds α) (params : Params α) :
    Particle α :=
  let position := answer.moved params p.position
  { p with
    position
    age := countTick p.age
    ticksOutside := if bounds.contains position then 0 else countTick p.ticksOutside }

end Life

/-- A particle that is drawn with the path it came. It neither ages nor is reborn. -/
structure Traced (α : Type) where
  /-- Where it is. -/
  position : Point α
  /-- Where it was before, oldest first. -/
  history : List (Point α)
deriving DecidableEq

namespace Traced

variable {α : Type}

/-- A particle without a history. -/
def start (position : Point α) : Traced α := ⟨position, []⟩

/-- The last `n` items of a list. -/
def keepLast {β : Type} (n : Nat) (items : List β) : List β := items.drop (items.length - n)

/-- The place where it is joins the history, of which the last `limit` points are kept. -/
def remember (t : Traced α) (limit : Nat) : Traced α :=
  { t with history := keepLast limit (t.history ++ [t.position]) }

/-- The history is emptied. -/
def forget (t : Traced α) : Traced α := { t with history := [] }

variable [Scalar α] [Elementary α]

/-- The particle one tick later. -/
def advance (t : Traced α) (field : Field α) (params : Params α) : Traced α :=
  let t := t.remember params.traceLength
  { t with position := (Answer.ask field t.position).moved params t.position }

end Traced

end PhasePortrait
