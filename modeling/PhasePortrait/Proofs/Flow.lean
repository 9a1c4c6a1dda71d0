import PhasePortrait.Flow
import PhasePortrait.Proofs.Setup

/-!
# Flows and their scenes

A flow is its particles, what moves them and what colours them, and a scene made of these. The scene
is for the eye only: what a tick or a clearing of the traces makes of two flows that differ in their
scenes differs in the scenes again, and in nothing else (`Alike`).
-/

namespace PhasePortrait

namespace Flow

/-- Two flows are alike if they differ in nothing but their scenes. -/
structure Alike (f g : Flow) : Prop where
  field : f.field = g.field
  population : f.population = g.population
  scheme : f.scheme = g.scheme
  colors : f.colors = g.colors

variable {f g : Flow}

theorem Alike.refl (f : Flow) : Alike f f := ⟨rfl, rfl, rfl, rfl⟩

/-- The scene of a flow has no part in a tick. -/
theorem Alike.step (h : Alike f g) : Alike f.step.2 g.step.2 where
  field := h.field
  population := by
    change (f.population.step f.field.velocityAt).2 = (g.population.step g.field.velocityAt).2
    rw [h.field, h.population]
  scheme := h.scheme
  colors := h.colors

theorem Alike.clearTraces (h : Alike f g) : Alike f.clearTraces g.clearTraces where
  field := h.field
  population := congrArg Population.clearTraces h.population
  scheme := h.scheme
  colors := h.colors

theorem Alike.refresh (h : Alike f g) (width height : Nat) : Alike (f.refresh width height) g :=
  ⟨h.field, h.population, h.scheme, h.colors⟩

/-- A flow takes every size that a configuration may have. -/
theorem resize_eq {width height : Nat}
    (h : (checkDimensions width height : Except (SetupError Float) Unit) = .ok ()) (f : Flow) :
    f.resize width height = .ok (f.refresh width height) := by
  unfold resize
  rw [h]
  rfl

/-- What a flow is made of: the field of its equations, and a population of its seed, with traces if
they are asked for. -/
theorem eq_of_ofConfig {c : Config} (h : ofConfig c = .ok f) :
    ∃ params, Params.ofJson c.params = .ok params ∧ params.check = .ok () ∧ f = {
      field := .ofTexts c.dx c.dy c.a c.b
      population :=
        if c.trace then (Population.ofSeed c.bounds params c.seed).setTrace true
        else Population.ofSeed c.bounds params c.seed
      scheme := c.scheme
      colors := c.scheme.color
      scene := .blank c.width c.height c.background } := by
  obtain ⟨_, -, h⟩ := bind_eq_ok.mp h
  obtain ⟨params, hread, h⟩ := bind_eq_ok.mp h
  obtain ⟨population, hmade, h⟩ := bind_eq_ok.mp h
  obtain ⟨hparams, rfl⟩ := Population.eq_of_make hmade
  exact ⟨params, hread, hparams, (Except.ok.inj h).symm⟩

/-- A new flow has a blank scene and has not ticked. -/
theorem fresh_of_ofConfig {c : Config} (h : ofConfig c = .ok f) :
    f.scene = .blank c.width c.height c.background ∧ f.population.tick = 0 := by
  obtain ⟨params, -, -, rfl⟩ := eq_of_ofConfig h
  refine ⟨rfl, ?_⟩
  dsimp only
  split <;> rfl

end Flow

end PhasePortrait
