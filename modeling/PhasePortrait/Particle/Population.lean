import PhasePortrait.Particle.Basic

/-!
# Populations

All particles of a run, and the generator that every draw comes from. The population is spawned once
and keeps its size; a particle that is due is reborn in place.

A tick has three parts. Each particle asks the field where it is and advances; this draws nothing.
The answers make the report, and the particles that moved make the samples to be shown. Then the
particles that are due are reborn, in order, each of them only in those ticks that its index falls
to, so that a tick renews a part of the population and the picture does not pulse.

Traced particles are apart from the live ones: they neither count in the report nor draw, except
when they are seeded.
-/

namespace PhasePortrait

/-- What is shown of a live particle after a tick. -/
structure Sample (α : Type) where
  position : Point α
  alpha : α
  velocity : Velocity α
deriving DecidableEq

/-- A live particle in the middle of a tick: advanced, and not yet reborn. -/
structure Advanced (α : Type) where
  particle : Particle α
  alpha : α
  answer : Answer α

/-- The sample of a particle that has a velocity. -/
def Advanced.sample? {α : Type} (m : Advanced α) : Option (Sample α) :=
  m.answer.velocity?.map fun v => ⟨m.particle.position, m.alpha, v⟩

/-- The particles of a run. -/
structure Population (α : Type) where
  params : Params α
  bounds : Bounds α
  generator : Generator
  /-- The live particles. -/
  particles : List (Particle α)
  /-- The particles that leave a trace. -/
  traced : List (Traced α)
  traceEnabled : Bool
  /-- What the last tick showed. -/
  samples : List (Sample α)
  /-- The ticks so far. -/
  tick : Nat

namespace Population

variable {α : Type} [Scalar α]

/-- The population of a seed. -/
def ofSeed (bounds : Bounds α) (params : Params α) (seed : UInt64) : Population α :=
  let (particles, generator) :=
    Draw.times params.particleCount (Particle.spawn bounds params) (.ofSeed seed)
  { params, bounds, generator, particles
    traced := [], traceEnabled := false, samples := [], tick := 0 }

/-- The population of a seed, in bounds and with parameters that are checked. -/
def make (bounds : Bounds α) (params : Params α) (seed : UInt64) :
    Except (SetupError α) (Population α) := do
  bounds.check
  params.check
  return ofSeed bounds params seed

/-- Replaces every traced particle by a new one. -/
def reseedTraces (p : Population α) : Population α :=
  let (places, generator) := Draw.times p.params.traceCount p.bounds.randomPoint p.generator
  { p with generator, traced := places.map Traced.start }

/-- Empties the history of every traced particle. -/
def clearTraces (p : Population α) : Population α :=
  { p with traced := p.traced.map Traced.forget }

/-- Turns traces on, with new traced particles, or off. -/
def setTrace (p : Population α) (enabled : Bool) : Population α :=
  if enabled then reseedTraces { p with traceEnabled := true }
  else { p with traceEnabled := false, traced := [] }

/-- Moves the bounds. Live particles stay where they are; traced ones are seeded anew. -/
def setBounds (p : Population α) (bounds : Bounds α) : Except (SetupError α) (Population α) := do
  bounds.check
  let p := { p with bounds }
  return if p.traceEnabled then p.reseedTraces else p

/-- Whether the particle of an index may be reborn in the tick under way. -/
def isTurn (p : Population α) (index : Nat) : Bool :=
  index % p.params.recycleStride == p.tick % p.params.recycleStride

/-- What becomes of the advanced particle of an index: it is reborn if it is due and its turn has
come. -/
def settle (p : Population α) (index : Nat) (m : Advanced α) : Draw (Particle α) :=
  if m.particle.expired m.alpha p.params && p.isTurn index then
    Particle.reborn p.bounds p.params
  else return m.particle

variable [Elementary α]

/-- A live particle asks the field and advances. -/
def advance (p : Population α) (field : Field α) (particle : Particle α) : Advanced α :=
  let answer := Answer.ask field particle.position
  let particle := particle.advance answer p.bounds p.params
  ⟨particle, particle.alpha p.params, answer⟩

/-- One tick in a field. -/
def step (p : Population α) (field : Field α) : Report × Population α :=
  let advanced := p.particles.map (p.advance field)
  let report := advanced.foldl (fun r m => r.record m.answer) Report.empty
  let (particles, generator) :=
    (advanced.zipIdx.mapM fun (m, index) => p.settle index m) p.generator
  let traced :=
    if p.traceEnabled then p.traced.map fun t => t.advance field p.params else p.traced
  (report, { p with
    generator, particles, traced
    samples := advanced.filterMap Advanced.sample?
    tick := p.tick + 1 })

end Population

end PhasePortrait
