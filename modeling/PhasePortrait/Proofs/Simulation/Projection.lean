import PhasePortrait.Proofs.Simulation.Run

/-!
# Loops seen through a map

An engine that remembers more than another one, and a factory that remembers more than another one,
drive a loop that remembers more. Where forgetting commutes with what engines and factories do
(`Projects`), it commutes with every run (`performAll_map`): the replies and the drawings are the
same, and the plain loop is the other one with the memory forgotten.

**The remembering is ours.** It is how a statement about a run gets hold of what the run did: which
configurations a factory was asked for (`recorded`), or what was done to an engine since it
was built.
-/

namespace PhasePortrait.Simulation

variable {σ τ φ ψ ρ : Type}

/-- The loop with its engine and the state of its factory seen through maps. -/
def map (f : σ → τ) (g : φ → ψ) (s : Simulation σ φ) : Simulation τ ψ where
  config := s.config
  engine := s.engine.map f
  wanted := s.wanted
  cancelled := s.cancelled
  status := s.status
  ticks := s.ticks
  factoryState := g s.factoryState

/-- Maps from one kind of engine and factory state to another that commute with everything engines
and factories do. -/
structure Projects [Engine σ] [Engine τ] (f : σ → τ) (g : φ → ψ) (factory : Factory σ φ)
    (plain : Factory τ ψ) : Prop where
  make : ∀ config state,
    plain config (g state) = ((factory config state).1.map f, g (factory config state).2)
  step : ∀ engine, Engine.step (f engine) = ((Engine.step engine).1, f (Engine.step engine).2)
  scene : ∀ engine, Engine.scene (f engine) = Engine.scene engine
  resize : ∀ engine width height,
    Engine.resize (f engine) width height = (Engine.resize engine width height).map f
  clearTraces : ∀ engine, Engine.clearTraces (f engine) = f (Engine.clearTraces engine)

section Commuting

variable [Engine σ] [Engine τ] {f : σ → τ} {g : φ → ψ} {factory : Factory σ φ}
  {plain : Factory τ ψ}

/-- Forgetting commutes with each operation of a loop. A rebuild calls the factory, for which it was
assumed. -/
theorem Projects.rebuild (h : Projects f g factory plain) (s : Simulation σ φ) :
    (s.map f g).rebuild plain = ((s.rebuild factory).1, (s.rebuild factory).2.map f g) := by
  have hmake := h.make s.config s.factoryState
  cases hcheck : s.config.check with
  | error cause => simp [Simulation.rebuild, Simulation.map, idleOn, hcheck]
  | ok =>
    rcases hmade : factory s.config s.factoryState with ⟨engine | cause, state⟩ <;>
      simp [Simulation.rebuild, Simulation.map, idleOn, hcheck, hmade, hmake, Except.map]

theorem Projects.start (h : Projects f g factory plain) (s : Simulation σ φ) :
    (s.map f g).start plain = ((s.start factory).1, (s.start factory).2.map f g) := by
  have hrunning : (s.map f g).isRunning = s.isRunning := by simp [isRunning, Simulation.map]
  have hrebuild := h.rebuild { s with wanted := true, cancelled := false }
  unfold Simulation.start
  dsimp only
  rw [hrunning]
  split
  · rfl
  · exact hrebuild

theorem Projects.restart (h : Projects f g factory plain) (s : Simulation σ φ) :
    (s.map f g).restart plain = ((s.restart factory).1, (s.restart factory).2.map f g) := by
  simp only [restart_eq, h.rebuild]

/-- A reconfiguration takes its way by the configuration and by whether there is an engine, which
forgetting does not change. -/
theorem Projects.reconfigure (h : Projects f g factory plain) (s : Simulation σ φ)
    (config : Config) :
    (s.map f g).reconfigure plain config =
      ((s.reconfigure factory config).1, (s.reconfigure factory config).2.map f g) := by
  obtain ⟨before, engine, wanted, cancelled, status, ticks, state⟩ := s
  have hrestart :=
    h.restart { config, engine, wanted, cancelled, status, ticks, factoryState := state }
  unfold Simulation.reconfigure
  dsimp only [Simulation.map] at hrestart ⊢
  cases config.check with
  | error cause => rfl
  | ok =>
    cases wanted with
    | false => rfl
    | true =>
      cases engine with
      | none => cases before.changeTo config <;> exact hrestart
      | some engine =>
        cases before.changeTo config with
        | unchanged => rfl
        | restart => exact hrestart
        | resize =>
          have hresize := h.resize engine config.width config.height
          dsimp only [Option.map_some, Bool.not_true]
          rw [hresize]
          cases Engine.resize engine config.width config.height <;> rfl

theorem Projects.clearTraces_map (h : Projects f g factory plain) (s : Simulation σ φ) :
    (s.map f g).clearTraces = s.clearTraces.map f g := by
  cases hengine : s.engine <;>
    simp [Simulation.clearTraces, Simulation.map, hengine, h.clearTraces]

/-- A tick is done by the engine, and what it draws is the scene that both engines have. -/
theorem Projects.tick (h : Projects f g factory plain) (draw : Drawing ρ) (s : Simulation σ φ)
    (r : ρ) :
    (s.map f g).tick draw r =
      ((s.tick draw r).1, (s.tick draw r).2.1.map f g, (s.tick draw r).2.2) := by
  have hheed : (s.map f g).heed = s.heed.map f g := by
    obtain ⟨config, engine, wanted, cancelled, status, ticks, state⟩ := s
    cases engine <;> cases cancelled <;> rfl
  unfold Simulation.tick
  rw [hheed]
  cases hengine : s.heed.engine with
  | none => simp [Simulation.map, hengine]
  | some engine => simp [Simulation.map, hengine, h.step, h.scene]

theorem Projects.runFrom (h : Projects f g factory plain) (draw : Drawing ρ) (done n : Nat)
    (s : Simulation σ φ) (r : ρ) :
    Simulation.runFrom draw done n (s.map f g) r =
      ((Simulation.runFrom draw done n s r).1, (Simulation.runFrom draw done n s r).2.1.map f g,
        (Simulation.runFrom draw done n s r).2.2) := by
  induction n generalizing done s r with
  | zero => rfl
  | succ n ih =>
    have htick := h.tick draw s r
    unfold Simulation.runFrom
    rw [htick]
    rcases s.tick draw r with ⟨_ | report, s', r'⟩
    · rfl
    · exact ih _ _ _

theorem Projects.perform (h : Projects f g factory plain) (s : Simulation σ φ) (r : ρ)
    (op : Operation ρ) :
    (s.map f g).perform plain r op =
      ((s.perform factory r op).1, (s.perform factory r op).2.1.map f g,
        (s.perform factory r op).2.2) := by
  cases op with
  | start => simp only [Simulation.perform, h.start]
  | stop => rfl
  | cancel => rfl
  | reconfigure config => simp only [Simulation.perform, h.reconfigure]
  | clearTraces => simp only [Simulation.perform, h.clearTraces_map]
  | tick draw => simp only [Simulation.perform, h.tick]
  | runFor draw n => simp only [Simulation.perform, runFor, h.runFrom]

/-- **Forgetting commutes with runs.** -/
theorem Projects.performAll (h : Projects f g factory plain) (ops : List (Operation ρ))
    (s : Simulation σ φ) (r : ρ) :
    Simulation.performAll plain ops (s.map f g) r =
      ((Simulation.performAll factory ops s r).1,
        (Simulation.performAll factory ops s r).2.1.map f g,
        (Simulation.performAll factory ops s r).2.2) := by
  induction ops generalizing s r with
  | nil => rfl
  | cons op ops ih => simp only [Simulation.performAll, h.perform, ih]

/-- The loop that a run reaches is the one that remembers more, with the memory forgotten. -/
theorem Projects.reached (h : Projects f g factory plain) (config : Config) (state : φ)
    (ops : List (Operation ρ)) (r : ρ) :
    Simulation.reached plain config (g state) ops r =
      (Simulation.reached factory config state ops r).map f g := by
  have hrun := h.performAll ops (idle config state) r
  exact congrArg (fun run => run.2.1) hrun

end Commuting

/-! ## The calls of a factory -/

/-- The factory that also remembers every configuration it was asked for, the last one first. -/
def recorded (factory : Factory σ φ) : Factory σ (φ × List Config) :=
  fun config (state, asked) =>
    ((factory config state).1, (factory config state).2, config :: asked)

/-- The record of what was asked is not looked at by the factory, so forgetting it changes
nothing. -/
theorem recorded_projects [Engine σ] (factory : Factory σ φ) :
    Projects id Prod.fst (recorded factory) factory where
  make config state := by
    obtain ⟨state, asked⟩ := state
    simp only [recorded, Except.map_id, id]
  step _ := rfl
  scene _ := rfl
  resize engine width height := by simp only [Except.map_id, id]
  clearTraces _ := rfl

end PhasePortrait.Simulation
