import Mathlib.Data.List.Forall2
import PhasePortrait.Proofs.Simulation.Run

/-!
# Cancelling and stopping

Raising the flag drops nothing: the loop keeps its engine until the next tick, stays wanted, and may
even be rebuilt by a reconfiguration while the flag is up. A stop drops the engine at once. Yet
nobody who watches the loop can tell the two apart.

The reason is that **a loop whose flag is up is its configuration and nothing else**: whatever else
it holds, it takes no tick, and the start that lowers the flag builds anew from the configuration
(`start_of_cancelled`). So two loops whose flags are up and whose configurations are equal stay
indistinguishable, and from their first start on they are the same loop (`Alike.perform`).

What a reconfiguration answers is left out of what is watched. A stopped loop only says what the
change would ask for; one that was cancelled is still wanted and says what it did.
-/

namespace PhasePortrait.Simulation

variable {σ φ ρ : Type}

/-! ## What is watched -/

/-- The answer, without what a reconfiguration says of itself. -/
def Reply.plain : Reply → Reply
  | .reconfigured _ => .done
  | reply => reply

/-- What is seen of a loop after an operation. -/
structure Sight (ρ : Type) where
  reply : Reply
  running : Bool
  config : Config
  canvas : ρ

/-- What is seen of a run, operation by operation. -/
def watch [Engine σ] (factory : Factory σ φ) :
    List (Operation ρ) → Simulation σ φ → ρ → List (Sight ρ)
  | [], _, _ => []
  | op :: ops, s, r =>
    let (reply, s, r) := s.perform factory r op
    ⟨reply.plain, s.isRunning, s.config, r⟩ :: watch factory ops s r

theorem watch_cons [Engine σ] (factory : Factory σ φ) (op : Operation ρ) (ops : List (Operation ρ))
    (s : Simulation σ φ) (r : ρ) :
    watch factory (op :: ops) s r =
      ⟨(s.perform factory r op).1.plain, (s.perform factory r op).2.1.isRunning,
        (s.perform factory r op).2.1.config, (s.perform factory r op).2.2⟩ ::
      watch factory ops (s.perform factory r op).2.1 (s.perform factory r op).2.2 := rfl

/-- The renderer that also keeps every scene it is given, in order. -/
def filming (draw : Drawing ρ) : Drawing (ρ × List (Scene Float)) := fun scene (r, film) =>
  ((draw scene r).1, (draw scene r).2, film ++ [scene])

/-- The operation with a renderer that keeps every scene. -/
def Operation.filmed : Operation ρ → Operation (ρ × List (Scene Float))
  | .start => .start
  | .stop => .stop
  | .cancel => .cancel
  | .reconfigure config => .reconfigure config
  | .clearTraces => .clearTraces
  | .tick draw => .tick (filming draw)
  | .runFor draw n => .runFor (filming draw) n

/-- What an operation answers that steps no engine. -/
def Operation.idleReply : Operation ρ → Reply
  | .tick _ => .ticked none
  | .runFor _ _ => .ran 0
  | _ => .done

/-- The configuration after an operation. -/
def Operation.configAfter (config : Config) : Operation ρ → Config
  | .reconfigure next => next
  | _ => config

/-! ## A loop whose flag is up -/

section Cancelled

variable {factory : Factory σ φ} {s : Simulation σ φ}

/-- A rebuild leaves the configuration and the flags alone. -/
theorem rebuild_keeps (factory : Factory σ φ) (s : Simulation σ φ) :
    (s.rebuild factory).2.config = s.config ∧ (s.rebuild factory).2.wanted = s.wanted ∧
      (s.rebuild factory).2.cancelled = s.cancelled := by
  generalize hresult : s.rebuild factory = result
  have hrebuilt := rebuild_cases factory s
  rw [hresult] at hrebuilt
  cases hrebuilt <;> exact ⟨rfl, rfl, rfl⟩

theorem isRunning_of_cancelled (h : s.cancelled = true) : s.isRunning = false := by
  simp [isRunning, h]

/-- Heeding the flag does not lower it. Only a start does. -/
theorem cancelled_heed (h : s.cancelled = true) : s.heed.cancelled = true := by
  unfold heed
  split
  · rfl
  · exact h

/-- Heeding the flag leaves the configuration alone, so a later start can use it. -/
theorem config_heed (s : Simulation σ φ) : s.heed.config = s.config := by
  unfold heed
  split <;> rfl

/-- **A start forgets all but the configuration**, if the flag is up: it is the start of a loop that
has never run. -/
theorem start_of_cancelled (h : s.cancelled = true) :
    s.start factory = (idle s.config s.factoryState).start factory := by
  have hidle : (idle s.config s.factoryState : Simulation σ φ).isRunning = false := rfl
  unfold start
  rw [isRunning_of_cancelled h, hidle]
  -- Whatever else the two loops hold, the rebuild overwrites it.
  simp only [Bool.false_eq_true, if_false, rebuild, idle, idleOn]

variable [Engine σ]

/-- A reconfiguration leaves the flag up and takes the configuration, whichever way it goes. -/
theorem reconfigure_of_cancelled (factory : Factory σ φ) (config : Config)
    (h : s.cancelled = true) :
    (s.reconfigure factory config).2.cancelled = true ∧
      (s.reconfigure factory config).2.config = config := by
  generalize hresult : s.reconfigure factory config = result
  have hcases := reconfigure_cases factory s config
  rw [hresult] at hcases
  cases hcases with
  | refused | kept | unchanged | resized | unsized => exact ⟨h, rfl⟩
  | restarted =>
    obtain ⟨hconfig, -, hcancelled⟩ := rebuild_keeps factory { s with config }
    rw [restart_eq]
    exact ⟨hcancelled.trans h, hconfig⟩

/-- A loop that does not run draws nothing, and heeds its flag if it is asked to tick at all. -/
theorem runFor_of_not_running (h : s.isRunning = false) (draw : Drawing ρ) (n : Nat) (r : ρ) :
    s.runFor draw n r = (0, if n = 0 then s else s.heed, r) := by
  cases n with
  | zero => rfl
  | succ n => simp only [runFor, runFrom, tick_of_not_running h draw r, Nat.succ_ne_zero, if_false]

/-- **Until it is started, a loop whose flag is up does nothing**: it draws nothing, it answers what
an idle loop answers, its flag stays up, and it only follows the configurations it is given. -/
theorem perform_of_cancelled (factory : Factory σ φ) (h : s.cancelled = true) (r : ρ)
    {op : Operation ρ} (hop : op ≠ .start) :
    (s.perform factory r op).1.plain = op.idleReply ∧
      (s.perform factory r op).2.1.cancelled = true ∧
      (s.perform factory r op).2.1.config = op.configAfter s.config ∧
      (s.perform factory r op).2.2 = r := by
  cases op with
  | start => exact absurd rfl hop
  | stop => exact ⟨rfl, rfl, rfl, rfl⟩
  | cancel => exact ⟨rfl, rfl, rfl, rfl⟩
  | clearTraces => exact ⟨rfl, h, rfl, rfl⟩
  | reconfigure config =>
    obtain ⟨hcancelled, hconfig⟩ := reconfigure_of_cancelled factory config h
    exact ⟨rfl, hcancelled, hconfig, rfl⟩
  | tick draw =>
    simp only [perform, tick_of_not_running (isRunning_of_cancelled h) draw r]
    exact ⟨rfl, cancelled_heed h, config_heed s, trivial⟩
  | runFor draw n =>
    simp only [perform, runFor_of_not_running (isRunning_of_cancelled h) draw n r]
    refine ⟨rfl, ?_, ?_, trivial⟩
    · split
      · exact h
      · exact cancelled_heed h
    · split
      · rfl
      · exact config_heed s

/-- A run without a start leaves the flag up, and every operation of it finds it up. So all that is
seen of it is what a loop that never ran would show. -/
theorem watch_of_cancelled (factory : Factory σ φ) (h : s.cancelled = true) (r : ρ)
    {ops : List (Operation ρ)} (hops : ∀ op ∈ ops, op ≠ .start) :
    (performAll factory ops s r).2.1.cancelled = true ∧
      List.Forall₂ (fun op sight =>
        sight.reply = op.idleReply ∧ sight.running = false ∧ sight.canvas = r)
        ops (watch factory ops s r) := by
  induction ops generalizing s with
  | nil => exact ⟨h, .nil⟩
  | cons op ops ih =>
    have hop := hops op List.mem_cons_self
    obtain ⟨hreply, hcancelled, -, hcanvas⟩ := perform_of_cancelled factory h r hop
    have hlater : ∀ op ∈ ops, op ≠ .start := fun op hmem => hops op (List.mem_cons_of_mem _ hmem)
    obtain ⟨hlast, hrest⟩ := ih hcancelled hlater
    rw [performAll_cons, watch_cons, hcanvas]
    exact ⟨hlast, .cons ⟨hreply, isRunning_of_cancelled hcancelled, rfl⟩ hrest⟩

end Cancelled

/-! ## Two loops that cannot be told apart -/

/-- A factory that looks at nothing but the configuration, and remembers nothing. -/
def pureFactory (build : Config → Except (SetupError Float) σ) : Factory σ Unit :=
  fun config state => (build config, state)

/-- The engine that a configuration stands for, if it is valid. -/
def freshEngine (build : Config → Except (SetupError Float) σ) (config : Config) :
    Except (SetupError Float) σ := do
  config.check
  build config

/-- The flags of both are up and their configurations are equal, or they are one loop. -/
inductive Alike (s t : Simulation σ Unit) : Prop where
  | cancelled (hs : s.cancelled = true) (ht : t.cancelled = true) (hconfig : s.config = t.config)
  | same (h : s = t)

section Alike

variable {s t : Simulation σ Unit}

theorem Alike.isRunning_eq (h : Alike s t) : s.isRunning = t.isRunning := by
  cases h with
  | cancelled hs ht hconfig => rw [isRunning_of_cancelled hs, isRunning_of_cancelled ht]
  | same h => rw [h]

theorem Alike.config_eq (h : Alike s t) : s.config = t.config := by
  cases h with
  | cancelled hs ht hconfig => exact hconfig
  | same h => rw [h]

/-- What a start builds where the flag is up. -/
theorem start_fresh (build : Config → Except (SetupError Float) σ) (h : s.cancelled = true) :
    (s.start (pureFactory build)).1 = (freshEngine build s.config).map (fun _ => ()) ∧
      (s.start (pureFactory build)).2.engine = (freshEngine build s.config).toOption ∧
      (s.start (pureFactory build)).2.isRunning =
        (freshEngine build s.config).toOption.isSome ∧
      (s.start (pureFactory build)).2.ticks = 0 := by
  unfold start
  rw [isRunning_of_cancelled h]
  simp only [Bool.false_eq_true, if_false, rebuild, idleOn, freshEngine, pureFactory]
  cases s.config.check with
  | error cause => exact ⟨rfl, rfl, rfl, rfl⟩
  | ok => cases build s.config <;> exact ⟨rfl, rfl, rfl, rfl⟩

variable [Engine σ]

/-- **One operation on two loops that are alike** answers the same, draws the same and leaves them
alike. -/
theorem Alike.perform (build : Config → Except (SetupError Float) σ) (h : Alike s t) (r : ρ)
    (op : Operation ρ) :
    (s.perform (pureFactory build) r op).1.plain = (t.perform (pureFactory build) r op).1.plain ∧
      (s.perform (pureFactory build) r op).2.2 = (t.perform (pureFactory build) r op).2.2 ∧
      Alike (s.perform (pureFactory build) r op).2.1 (t.perform (pureFactory build) r op).2.1 := by
  cases h with
  | same h =>
    rw [h]
    exact ⟨rfl, rfl, .same rfl⟩
  | cancelled hs ht hconfig =>
    by_cases hop : op = .start
    · -- The start overwrites whatever they differ in.
      have hstart : s.start (pureFactory build) = t.start (pureFactory build) := by
        rw [start_of_cancelled hs, start_of_cancelled ht, hconfig]
      rw [hop]
      simp only [Simulation.perform, hstart]
      exact ⟨trivial, trivial, .same rfl⟩
    · obtain ⟨hreply, hcancelled, hnext, hcanvas⟩ :=
        perform_of_cancelled (pureFactory build) hs r hop
      obtain ⟨hreply', hcancelled', hnext', hcanvas'⟩ :=
        perform_of_cancelled (pureFactory build) ht r hop
      refine ⟨hreply.trans hreply'.symm, hcanvas.trans hcanvas'.symm, .cancelled hcancelled
        hcancelled' ?_⟩
      rw [hnext, hnext', hconfig]

/-- **Runs of two loops that are alike look the same.** -/
theorem Alike.watch_eq (build : Config → Except (SetupError Float) σ) (h : Alike s t)
    (ops : List (Operation ρ)) (r : ρ) :
    watch (pureFactory build) ops s r = watch (pureFactory build) ops t r := by
  induction ops generalizing s t r with
  | nil => rfl
  | cons op ops ih =>
    obtain ⟨hreply, hcanvas, hnext⟩ := h.perform build r op
    rw [watch_cons, watch_cons, hreply, hcanvas, hnext.isRunning_eq, hnext.config_eq, ih hnext]

/-- **Cancelling is as good as stopping.** In any state, whatever is done afterwards and whatever
draws: a loop that was cancelled and one that was stopped look the same in every tick, every frame
and every start, and run or do not run at the same times. Until the next start neither of them ticks
or draws; that start is the start of a loop that has never run, with an engine fresh from the
configuration that the loop has then. Doing either of the two again, or the other one, changes
nothing more. -/
theorem cancelling_is_as_good_as_stopping (build : Config → Except (SetupError Float) σ)
    (s : Simulation σ Unit) (ops : List (Operation ρ)) (r : ρ) :
    let factory := pureFactory build
    watch factory ops s.cancel r = watch factory ops s.stop r ∧
    watch factory (ops.map .filmed) s.cancel (r, []) =
      watch factory (ops.map .filmed) s.stop (r, []) ∧
    (∀ halted, halted = s.cancel ∨ halted = s.stop → (∀ op ∈ ops, op ≠ .start) →
      List.Forall₂ (fun op sight =>
          sight.reply = op.idleReply ∧ sight.running = false ∧ sight.canvas = r)
        ops (watch factory ops halted r) ∧
      let later := (performAll factory ops halted r).2.1
      later.start factory = (idle later.config ()).start factory ∧
      (later.start factory).1 = (freshEngine build later.config).map (fun _ => ()) ∧
      (later.start factory).2.engine = (freshEngine build later.config).toOption ∧
      (later.start factory).2.isRunning = (freshEngine build later.config).toOption.isSome ∧
      (later.start factory).2.ticks = 0) ∧
    s.cancel.cancel = s.cancel ∧ s.stop.stop = s.stop ∧ s.stop.cancel = s.stop ∧
      s.cancel.stop = s.stop := by
  intro factory
  have halike : Alike s.cancel s.stop := .cancelled rfl rfl rfl
  refine ⟨halike.watch_eq build ops r, halike.watch_eq build _ _, fun halted hhalted hops => ?_,
    rfl, rfl, rfl, rfl⟩
  have hcancelled : halted.cancelled = true := by
    rcases hhalted with rfl | rfl <;> rfl
  obtain ⟨hlater, hidle⟩ := watch_of_cancelled factory hcancelled r hops
  exact ⟨hidle, start_of_cancelled hlater, start_fresh build hlater⟩

end Alike

end PhasePortrait.Simulation
