import PhasePortrait.Simulation

/-!
# Runs of a loop

Everything that can be done with a loop, as operations that answer something, and a run as a list of
them. A renderer comes with each tick, and all of them draw on the same canvas; the flag may be
raised between two operations (`cancel`) or by a renderer while it draws.

What a rebuild and a reconfiguration can do is said once, case by case (`Rebuilt`, `Reconfigured`).
A property that the six elementary operations keep holds after every run (`Kept.performAll`).
-/

namespace PhasePortrait.Simulation

variable {σ φ ρ : Type}

/-- What can be done with a loop. -/
inductive Operation (ρ : Type) where
  | start
  | stop
  /-- The flag is raised from outside. -/
  | cancel
  | reconfigure (config : Config)
  | clearTraces
  | tick (draw : Drawing ρ)
  | runFor (draw : Drawing ρ) (n : Nat)

/-- What an operation answers. -/
inductive Reply where
  | done
  | started (result : Except (SetupError Float) Unit)
  | reconfigured (result : Except (SetupError Float) Change)
  | ticked (report : Option Report)
  | ran (ticks : Nat)

section Runs

variable [Engine σ]

def perform (factory : Factory σ φ) (s : Simulation σ φ) (r : ρ) :
    Operation ρ → Reply × Simulation σ φ × ρ
  | .start => (.started (s.start factory).1, (s.start factory).2, r)
  | .stop => (.done, s.stop, r)
  | .cancel => (.done, s.cancel, r)
  | .reconfigure config =>
    (.reconfigured (s.reconfigure factory config).1, (s.reconfigure factory config).2, r)
  | .clearTraces => (.done, s.clearTraces, r)
  | .tick draw => (.ticked (s.tick draw r).1, (s.tick draw r).2)
  | .runFor draw n => (.ran (s.runFor draw n r).1, (s.runFor draw n r).2)

/-- A run: operations one after another, with all that they answer. -/
def performAll (factory : Factory σ φ) :
    List (Operation ρ) → Simulation σ φ → ρ → List Reply × Simulation σ φ × ρ
  | [], s, r => ([], s, r)
  | op :: ops, s, r =>
    let (reply, s, r) := s.perform factory r op
    let (replies, s, r) := performAll factory ops s r
    (reply :: replies, s, r)

theorem performAll_cons (factory : Factory σ φ) (op : Operation ρ) (ops : List (Operation ρ))
    (s : Simulation σ φ) (r : ρ) :
    performAll factory (op :: ops) s r =
      ((s.perform factory r op).1 ::
        (performAll factory ops (s.perform factory r op).2.1 (s.perform factory r op).2.2).1,
        (performAll factory ops (s.perform factory r op).2.1 (s.perform factory r op).2.2).2) := rfl

/-- The loop after a run from a stopped loop. -/
def reached (factory : Factory σ φ) (config : Config) (state : φ) (ops : List (Operation ρ))
    (r : ρ) : Simulation σ φ :=
  (performAll factory ops (idle config state) r).2.1

end Runs

/-! ## Rebuilding -/

/-- What a rebuild answers and leaves: the configuration is refused, or the factory fails, or there
is a new engine. Everything that may happen to an engine goes through this. -/
inductive Rebuilt (factory : Factory σ φ) (s : Simulation σ φ) :
    Except (SetupError Float) Unit × Simulation σ φ → Prop where
  /-- The configuration is refused, and the factory is not asked. -/
  | refused {cause} (hcheck : s.config.check = .error cause) :
    Rebuilt factory s
      (.error cause, { s with engine := none, ticks := 0, status := some cause.message })
  | built {engine state} (hcheck : s.config.check = .ok ())
      (hmade : factory s.config s.factoryState = (.ok engine, state)) :
    Rebuilt factory s
      (.ok (),
        { s with engine := some engine, ticks := 0, status := none, factoryState := state })
  | failed {cause state} (hcheck : s.config.check = .ok ())
      (hmade : factory s.config s.factoryState = (.error cause, state)) :
    Rebuilt factory s
      (.error cause,
        { s with
          engine := none
          ticks := 0
          status := some cause.message
          factoryState := state })

theorem rebuild_cases (factory : Factory σ φ) (s : Simulation σ φ) :
    Rebuilt factory s (s.rebuild factory) := by
  unfold rebuild
  dsimp only
  split
  next hcheck => exact .refused hcheck
  next hcheck =>
    split
    next hmade => exact .built hcheck hmade
    next hmade => exact .failed hcheck hmade

/-- A restart is a rebuild with another word for its success. -/
theorem restart_eq (factory : Factory σ φ) (s : Simulation σ φ) :
    s.restart factory =
      ((s.rebuild factory).1.map fun () => Change.restart, (s.rebuild factory).2) := by
  unfold restart
  split
  next heq => rw [heq]; rfl
  next heq => rw [heq]; rfl

/-- A start only lowers the flag of a loop that runs. -/
theorem start_of_running {s : Simulation σ φ} (h : s.isRunning = true) (factory : Factory σ φ) :
    s.start factory = (.ok (), { s with wanted := true, cancelled := false }) := by
  unfold Simulation.start
  rw [h]
  rfl

/-- Any other loop it builds anew. -/
theorem start_of_not_running {s : Simulation σ φ} (h : s.isRunning = false)
    (factory : Factory σ φ) :
    s.start factory = { s with wanted := true, cancelled := false }.rebuild factory := by
  unfold Simulation.start
  rw [h]
  rfl

/-! ## Reconfiguring -/

/-- What a reconfiguration answers and leaves, one case for each way that it may take. Proofs about
it go by these cases and not by its tests. -/
inductive Reconfigured [Engine σ] (factory : Factory σ φ) (s : Simulation σ φ) (config : Config) :
    Except (SetupError Float) Change × Simulation σ φ → Prop where
  /-- The configuration is refused, and kept. -/
  | refused {cause} (hcheck : config.check = .error cause) :
    Reconfigured factory s config
      (.error cause, { s with config, engine := none, status := some cause.message })
  /-- A loop that is not wanted only keeps the configuration. -/
  | kept (hcheck : config.check = .ok ()) (hwanted : s.wanted = false) :
    Reconfigured factory s config (.ok (s.config.changeTo config), { s with config })
  | unchanged {engine} (hcheck : config.check = .ok ()) (hwanted : s.wanted = true)
      (hchange : s.config.changeTo config = .unchanged) (hengine : s.engine = some engine) :
    Reconfigured factory s config (.ok .unchanged, { s with config })
  /-- The engine takes the new size. -/
  | resized {engine resized} (hcheck : config.check = .ok ()) (hwanted : s.wanted = true)
      (hchange : s.config.changeTo config = .resize) (hengine : s.engine = some engine)
      (hresize : Engine.resize engine config.width config.height = .ok resized) :
    Reconfigured factory s config (.ok .resize, { s with config, engine := some resized })
  /-- The engine does not take the new size. -/
  | unsized {engine cause} (hcheck : config.check = .ok ()) (hwanted : s.wanted = true)
      (hchange : s.config.changeTo config = .resize) (hengine : s.engine = some engine)
      (hresize : Engine.resize engine config.width config.height = .error cause) :
    Reconfigured factory s config (.error cause, { s with config })
  /-- The engine is built anew. -/
  | restarted (hcheck : config.check = .ok ()) (hwanted : s.wanted = true)
      (hchange : s.config.changeTo config = .restart ∨ s.engine = none) :
    Reconfigured factory s config ({ s with config }.restart factory)

theorem reconfigure_cases [Engine σ] (factory : Factory σ φ) (s : Simulation σ φ)
    (config : Config) : Reconfigured factory s config (s.reconfigure factory config) := by
  unfold reconfigure
  dsimp only
  split
  next hcheck => exact .refused hcheck
  next hcheck =>
    split
    next hwanted => exact .kept hcheck (by simpa using hwanted)
    next hwanted =>
      have hwanted : s.wanted = true := by simpa using hwanted
      split
      next hchange hengine => exact .unchanged hcheck hwanted hchange hengine
      next hchange hengine =>
        split
        next hresize => exact .resized hcheck hwanted hchange hengine hresize
        next hresize => exact .unsized hcheck hwanted hchange hengine hresize
      next hunchanged hresize =>
        refine .restarted hcheck hwanted ?_
        cases hengine : s.engine with
        | none => exact .inr rfl
        | some engine =>
          cases hchange : s.config.changeTo config with
          | unchanged => exact absurd hengine (hunchanged _ hchange)
          | resize => exact absurd hengine (hresize _ hchange)
          | restart => exact .inl rfl

/-! ## Ticking -/

/-- A loop runs when it has an engine and its flag is not raised. -/
theorem isRunning_iff {s : Simulation σ φ} :
    s.isRunning = true ↔ (∃ engine, s.engine = some engine) ∧ s.cancelled = false := by
  simp [isRunning, Option.isSome_iff_exists]

/-- A loop that still has its engine was not stopped by its flag. -/
theorem heed_eq_self {s : Simulation σ φ} {engine : σ} (h : s.heed.engine = some engine) :
    s.heed = s := by
  unfold heed at h ⊢
  split at h
  next => cases h
  next hlowered => rw [if_neg hlowered]

/-- There is nothing to drop where there is no engine. -/
theorem heed_of_empty {s : Simulation σ φ} (h : s.engine = none) : s.heed = s := by
  simp [heed, h]

/-- A loop that is not running has no engine once it has heeded its flag. -/
theorem heed_empty {s : Simulation σ φ} (h : s.isRunning = false) : s.heed.engine = none := by
  unfold isRunning at h
  unfold heed
  cases hengine : s.engine <;> cases hcancelled : s.cancelled <;>
    simp_all [stop]

section Ticks

variable [Engine σ]

/-- A loop that is not running takes no tick. -/
theorem tick_of_not_running {s : Simulation σ φ} (h : s.isRunning = false) (draw : Drawing ρ)
    (r : ρ) : s.tick draw r = (none, s.heed, r) := by
  unfold tick
  simp only [heed_empty h]

/-- A running loop steps its engine and draws the scene once. -/
theorem tick_of_running {s : Simulation σ φ} {engine : σ} (hengine : s.engine = some engine)
    (hcancelled : s.cancelled = false) (draw : Drawing ρ) (r : ρ) :
    s.tick draw r =
      (some (Engine.step engine).1,
        { s with
          engine := some (Engine.step engine).2
          cancelled := (draw (Engine.scene (Engine.step engine).2) r).1
          ticks := s.ticks + 1
          status := (Engine.step engine).1.status? },
        (draw (Engine.scene (Engine.step engine).2) r).2) := by
  have hheed : s.heed = s := by simp [heed, hcancelled]
  simp only [tick, hheed, hengine, hcancelled, Bool.false_or]

end Ticks

/-! ## What every operation keeps -/

section Kept

variable [Engine σ]

/-- A property of loops that every elementary operation keeps. -/
structure Kept (factory : Factory σ φ) (P : Simulation σ φ → Prop) : Prop where
  start : ∀ {s}, P s → P (s.start factory).2
  stop : ∀ {s}, P s → P s.stop
  cancel : ∀ {s}, P s → P s.cancel
  reconfigure : ∀ {s} config, P s → P (s.reconfigure factory config).2
  clearTraces : ∀ {s}, P s → P s.clearTraces
  tick : ∀ {ρ : Type} (draw : Drawing ρ) {s} (r : ρ), P s → P (s.tick draw r).2.1

variable {factory : Factory σ φ} {P : Simulation σ φ → Prop}

theorem Kept.runFrom (h : Kept factory P) (draw : Drawing ρ) (done n : Nat)
    {s : Simulation σ φ} (r : ρ) (hs : P s) : P (runFrom draw done n s r).2.1 := by
  fun_induction Simulation.runFrom draw done n s r with
  | case1 => exact hs
  | case2 done n s r s' r' htick =>
    have := h.tick draw r hs
    rwa [htick] at this
  | case3 done n s r report s' r' htick ih =>
    have := h.tick draw r hs
    rw [htick] at this
    exact ih this

theorem Kept.perform (h : Kept factory P) {s : Simulation σ φ} (r : ρ) (op : Operation ρ)
    (hs : P s) : P (s.perform factory r op).2.1 := by
  cases op with
  | start => exact h.start hs
  | stop => exact h.stop hs
  | cancel => exact h.cancel hs
  | reconfigure config => exact h.reconfigure config hs
  | clearTraces => exact h.clearTraces hs
  | tick draw => exact h.tick draw r hs
  | runFor draw n => exact h.runFrom draw 0 n r hs

/-- What every elementary operation keeps, every run keeps. -/
theorem Kept.performAll (h : Kept factory P) (ops : List (Operation ρ)) {s : Simulation σ φ}
    (r : ρ) (hs : P s) : P (performAll factory ops s r).2.1 := by
  induction ops generalizing s r with
  | nil => exact hs
  | cons op ops ih => exact ih _ (h.perform r op hs)

end Kept

end PhasePortrait.Simulation
