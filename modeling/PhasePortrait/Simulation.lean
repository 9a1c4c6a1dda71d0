import PhasePortrait.Config.Basic
import PhasePortrait.Engine

/-!
# Simulations

The loop around an engine: started and stopped, cancelled from outside, given other configurations,
and ticked, each tick handing its scene to a renderer.

An engine is built by a factory, which may keep a state of its own. A renderer has a state too, and
may raise the flag that cancels the loop while it draws; the tick under way still counts. So may the
scheduler that ticks are waited for with; the tick it was asked for is then not taken.

Starting and stopping say what is **wanted**. A configuration that is refused drops the engine and
leaves its message as the status; the loop stays idle until a valid one is given, and then goes on
if it is still wanted. Raising the flag from outside drops nothing: the next tick sees the flag and
stops the loop.
-/

namespace PhasePortrait

/-- How engines are built for a configuration. -/
abbrev Factory (σ φ : Type) := Config → φ → Except (SetupError Float) σ × φ

/-- A renderer draws a scene and says whether it cancels the loop. -/
abbrev Drawing (ρ : Type) := Scene Float → ρ → Bool × ρ

/-- A scheduler waits until the next tick is due, and may cancel the loop meanwhile. -/
abbrev Waiting (τ : Type) := τ → Bool × τ

/-- A loop, with the state of its factory. -/
structure Simulation (σ φ : Type) where
  config : Config
  engine : Option σ
  /-- Set by a start, cleared by a stop. -/
  wanted : Bool
  /-- The flag that may be raised from outside. -/
  cancelled : Bool
  /-- The last error of the field or of the configuration. -/
  status : Option String
  /-- The ticks since the engine was built. -/
  ticks : Nat
  factoryState : φ

namespace Simulation

variable {σ φ ρ τ : Type}

/-- A loop that is stopped. -/
def idle (config : Config) (factoryState : φ) : Simulation σ φ :=
  { config, engine := none, wanted := false, cancelled := false, status := none, ticks := 0
    factoryState }

/-- Whether a tick would step an engine. -/
def isRunning (s : Simulation σ φ) : Bool := s.engine.isSome && !s.cancelled

/-- Raises the flag. -/
def cancel (s : Simulation σ φ) : Simulation σ φ := { s with cancelled := true }

/-- Stops the loop and drops the engine. -/
def stop (s : Simulation σ φ) : Simulation σ φ :=
  { s with wanted := false, cancelled := true, engine := none }

/-- The loop without an engine, for a reason. -/
def idleOn (s : Simulation σ φ) (cause : SetupError Float) : Simulation σ φ :=
  { s with engine := none, status := some cause.message }

/-- Builds a new engine for the configuration, if it is valid. -/
def rebuild (factory : Factory σ φ) (s : Simulation σ φ) :
    Except (SetupError Float) Unit × Simulation σ φ :=
  let s := { s with engine := none, ticks := 0 }
  match s.config.check with
  | .error cause => (.error cause, s.idleOn cause)
  | .ok () =>
    match factory s.config s.factoryState with
    | (.ok engine, factoryState) =>
      (.ok (), { s with engine := some engine, status := none, factoryState })
    | (.error cause, factoryState) => (.error cause, { s with factoryState }.idleOn cause)

/-- Starts the loop with a new engine. A running loop is left alone; a cancelled one is not running.
-/
def start (factory : Factory σ φ) (s : Simulation σ φ) :
    Except (SetupError Float) Unit × Simulation σ φ :=
  let started := { s with wanted := true, cancelled := false }
  if s.isRunning then (.ok (), started) else started.rebuild factory

/-- Builds a new engine for a configuration that asks for one. -/
def restart (factory : Factory σ φ) (s : Simulation σ φ) :
    Except (SetupError Float) Change × Simulation σ φ :=
  match s.rebuild factory with
  | (.ok (), s) => (.ok .restart, s)
  | (.error cause, s) => (.error cause, s)

section Driving

variable [Engine σ]

/-- Gives the loop another configuration and says what came of it. A loop that is not wanted only
keeps it. One that is wanted is resized where that is enough, and otherwise built anew. -/
def reconfigure (factory : Factory σ φ) (s : Simulation σ φ) (config : Config) :
    Except (SetupError Float) Change × Simulation σ φ :=
  let change := s.config.changeTo config
  let s := { s with config }
  match config.check with
  | .error cause => (.error cause, s.idleOn cause)
  | .ok () =>
    if !s.wanted then (.ok change, s)
    else
      match change, s.engine with
      | .unchanged, some _ => (.ok .unchanged, s)
      | .resize, some engine =>
        match Engine.resize engine config.width config.height with
        | .ok engine => (.ok .resize, { s with engine := some engine })
        | .error cause => (.error cause, s)
      | _, _ => s.restart factory

/-- Empties the traces of the engine. -/
def clearTraces (s : Simulation σ φ) : Simulation σ φ :=
  { s with engine := s.engine.map Engine.clearTraces }

/-- The scene of the engine. -/
def scene? (s : Simulation σ φ) : Option (Scene Float) := s.engine.map Engine.scene

/-- The loop as the next tick finds it: a flag that was raised stops it. -/
def heed (s : Simulation σ φ) : Simulation σ φ :=
  if s.cancelled && s.engine.isSome then s.stop else s

/-- One tick: the engine is stepped and its scene drawn. A loop that is not running does neither and
reports nothing. -/
def tick (draw : Drawing ρ) (s : Simulation σ φ) (r : ρ) :
    Option Report × Simulation σ φ × ρ :=
  let s := s.heed
  match s.engine with
  | none => (none, s, r)
  | some engine =>
    let (report, engine) := Engine.step engine
    let (raised, r) := draw (Engine.scene engine) r
    (some report, { s with
      engine := some engine
      cancelled := s.cancelled || raised
      ticks := s.ticks + 1
      status := report.status? }, r)

/-- Up to `n` ticks on top of those that are done, and how many there were in all. -/
def runFrom (draw : Drawing ρ) (done : Nat) :
    (n : Nat) → Simulation σ φ → ρ → Nat × Simulation σ φ × ρ
  | 0, s, r => (done, s, r)
  | n + 1, s, r =>
    match tick draw s r with
    | (none, s, r) => (done, s, r)
    | (some _, s, r) => runFrom draw (done + 1) n s r

/-- Up to `n` ticks, and how many there were. -/
def runFor (draw : Drawing ρ) (n : Nat) (s : Simulation σ φ) (r : ρ) :
    Nat × Simulation σ φ × ρ :=
  runFrom draw 0 n s r

/-- Ticks on top of those that are done, each of them waited for, as long as the loop is running; at
most `fuel`. A flag that was raised while waiting stops the loop before the tick. -/
def runWhile (wait : Waiting τ) (draw : Drawing ρ) (done : Nat) :
    (fuel : Nat) → Simulation σ φ → ρ → τ → Nat × Simulation σ φ × ρ × τ
  | 0, s, r, p => (done, s, r, p)
  | fuel + 1, s, r, p =>
    if s.isRunning then
      let (raised, p) := wait p
      match tick draw { s with cancelled := s.cancelled || raised } r with
      | (none, s, r) => (done, s, r, p)
      | (some _, s, r) => runWhile wait draw (done + 1) fuel s r p
    else (done, s, r, p)

/-- Ticks at the pace of a scheduler, as long as the loop is running, and how many there were; at
most `fuel`, as a loop that nobody cancels has no end. -/
def runPaced (wait : Waiting τ) (draw : Drawing ρ) (fuel : Nat) (s : Simulation σ φ) (r : ρ)
    (p : τ) : Nat × Simulation σ φ × ρ × τ :=
  runWhile wait draw 0 fuel s r p

/-- Ticks as fast as the loop can go. -/
def run (draw : Drawing ρ) (fuel : Nat) (s : Simulation σ φ) (r : ρ) :
    Nat × Simulation σ φ × ρ :=
  let (done, s, r, _) := s.runPaced (fun p => (false, p)) draw fuel r ()
  (done, s, r)

end Driving

end Simulation

end PhasePortrait
