import PhasePortrait.CommandLine.Render
import PhasePortrait.Proofs.Flow
import PhasePortrait.Proofs.Simulation.Projection

/-!
# The invariant of a loop

A loop has three flags of a kind: what is **wanted**, whether it was **cancelled**, and whether it
has an **engine**. What ties them to the configuration, and to what the loop says of itself, is
`Consistent`. Every operation keeps it, a reconfiguration that is refused halfway included, as long
as engines take every size that a configuration may have (`Resizable`).

The cancelled flag is left out on purpose: it may be raised at any moment and nothing follows from
it before the next tick.
-/

namespace PhasePortrait.Simulation

variable {σ φ ρ : Type}

/-- The engines that a loop can hold: built for a valid configuration, and then stepped, resized and
cleared. -/
inductive Makes [Engine σ] (factory : Factory σ φ) : σ → Prop where
  | built {config before engine after} (hcheck : config.check = .ok ())
      (hmade : factory config before = (.ok engine, after)) : Makes factory engine
  | stepped {engine} (h : Makes factory engine) : Makes factory (Engine.step engine).2
  | resized {engine width height resized} (h : Makes factory engine)
      (hsize : (checkDimensions width height : Except (SetupError Float) Unit) = .ok ())
      (hresize : Engine.resize engine width height = .ok resized) : Makes factory resized
  | cleared {engine} (h : Makes factory engine) : Makes factory (Engine.clearTraces engine)

/-- The engines of a factory take every size that a configuration may have. -/
def Resizable [Engine σ] (factory : Factory σ φ) : Prop :=
  ∀ {engine}, Makes factory engine → ∀ {width height},
    (checkDimensions width height : Except (SetupError Float) Unit) = .ok () →
      ∃ resized, Engine.resize engine width height = .ok resized

/-- Why a configuration has no engine: it is invalid, or the factory refused it when it was last
asked. -/
def Refused (factory : Factory σ φ) (s : Simulation σ φ) (cause : SetupError Float) : Prop :=
  s.config.check = .error cause ∨
    s.config.check = .ok () ∧
      ∃ before, factory s.config before = (.error cause, s.factoryState)

/-- **The invariant.** -/
structure Consistent [Engine σ] (factory : Factory σ φ) (s : Simulation σ φ) : Prop where
  /-- An engine is there only where it is wanted and the configuration is valid. -/
  present : ∀ {engine}, s.engine = some engine →
    s.wanted = true ∧ s.config.check = .ok () ∧ Makes factory engine
  /-- A loop that is wanted and has no engine says why. -/
  absent : s.wanted = true → s.engine = none →
    ∃ cause, s.status = some cause.message ∧ Refused factory s cause

section Keeping

variable [Engine σ] {factory : Factory σ φ} {s : Simulation σ φ}

/-- A rebuild of a loop that is wanted leaves a consistent one, whatever it started from: it drops
the engine first, and then has a new one or says why not. -/
theorem consistent_rebuild (hwanted : s.wanted = true) :
    Consistent factory (s.rebuild factory).2 := by
  generalize hresult : s.rebuild factory = result
  have hrebuilt := rebuild_cases factory s
  rw [hresult] at hrebuilt
  cases hrebuilt with
  | refused hcheck =>
    exact { present := nofun, absent := fun _ _ => ⟨_, rfl, .inl hcheck⟩ }
  | built hcheck hmade =>
    refine { present := fun h => ?_, absent := nofun }
    obtain rfl := Option.some.inj h
    exact ⟨hwanted, hcheck, .built hcheck hmade⟩
  | failed hcheck hmade =>
    exact { present := nofun, absent := fun _ _ => ⟨_, rfl, .inr ⟨hcheck, _, hmade⟩⟩ }

/-- A start keeps the invariant: it does nothing to a loop that runs, and else it is a rebuild. -/
theorem Consistent.start (h : Consistent factory s) : Consistent factory (s.start factory).2 := by
  cases hrunning : s.isRunning with
  | true =>
    -- A running loop has an engine, so it was wanted already.
    obtain ⟨⟨engine, hengine⟩, -⟩ := isRunning_iff.mp hrunning
    rw [start_of_running hrunning]
    refine { present := fun hpresent => ?_, absent := fun _ hnone => ?_ }
    · exact ⟨rfl, (h.present hpresent).2⟩
    · rw [hengine] at hnone
      cases hnone
  | false =>
    rw [start_of_not_running hrunning]
    exact consistent_rebuild rfl

/-- A reconfiguration keeps it in each of its ways: a rebuild, a resize of the engine that is there,
or only another configuration. A resize that is refused would keep an engine of another size; where
engines take every size there is none. -/
theorem Consistent.reconfigure (h : Consistent factory s) (hresizable : Resizable factory)
    (config : Config) : Consistent factory (s.reconfigure factory config).2 := by
  generalize hresult : s.reconfigure factory config = result
  have hcases := reconfigure_cases factory s config
  rw [hresult] at hcases
  cases hcases with
  | refused hcheck =>
    exact { present := nofun, absent := fun _ _ => ⟨_, rfl, .inl hcheck⟩ }
  | kept hcheck hwanted =>
    refine { present := fun hpresent => ?_, absent := fun hyes => ?_ }
    · exact ⟨(h.present hpresent).1, hcheck, (h.present hpresent).2.2⟩
    · rw [hwanted] at hyes
      cases hyes
  | unchanged hcheck hwanted hchange hengine =>
    refine { present := fun hpresent => ?_, absent := fun _ hnone => ?_ }
    · exact ⟨hwanted, hcheck, (h.present hpresent).2.2⟩
    · rw [hengine] at hnone
      cases hnone
  | resized hcheck hwanted hchange hengine hresize =>
    refine { present := fun hpresent => ?_, absent := nofun }
    obtain rfl := Option.some.inj hpresent
    have hsize := Config.checkDimensions_of_check hcheck
    exact ⟨hwanted, hcheck, .resized (h.present hengine).2.2 hsize hresize⟩
  | unsized hcheck hwanted hchange hengine hresize =>
    -- The one way to keep an engine of another size than the configuration: it cannot be taken.
    obtain ⟨resized, htaken⟩ :=
      hresizable (h.present hengine).2.2 (Config.checkDimensions_of_check hcheck)
    rw [hresize] at htaken
    cases htaken
  | restarted hcheck hwanted hchange =>
    rw [restart_eq]
    exact consistent_rebuild hwanted

/-- Clearing traces touches the engine and nothing else of the loop. -/
theorem Consistent.clearTraces (h : Consistent factory s) :
    Consistent factory s.clearTraces := by
  refine { present := fun hpresent => ?_, absent := fun hwanted hnone => ?_ }
  · obtain ⟨engine, hengine, rfl⟩ := Option.map_eq_some_iff.mp hpresent
    obtain ⟨hwanted, hcheck, hmakes⟩ := h.present hengine
    exact ⟨hwanted, hcheck, .cleared hmakes⟩
  · exact h.absent hwanted (Option.map_eq_none_iff.mp hnone)

/-- Heeding the flag drops the engine together with the wish for one. -/
theorem Consistent.heed (h : Consistent factory s) : Consistent factory s.heed := by
  unfold Simulation.heed
  split
  · exact { present := nofun, absent := nofun }
  · exact h

/-- A tick of a loop that runs steps its engine. Any other one heeds the flag. -/
theorem Consistent.tick (h : Consistent factory s) (draw : Drawing ρ) (r : ρ) :
    Consistent factory (s.tick draw r).2.1 := by
  cases hrunning : s.isRunning with
  | false =>
    rw [tick_of_not_running hrunning]
    exact h.heed
  | true =>
    obtain ⟨⟨engine, hengine⟩, hcancelled⟩ := isRunning_iff.mp hrunning
    rw [tick_of_running hengine hcancelled]
    refine { present := fun hpresent => ?_, absent := nofun }
    obtain rfl := Option.some.inj hpresent
    obtain ⟨hwanted, hcheck, hmakes⟩ := h.present hengine
    exact ⟨hwanted, hcheck, .stepped hmakes⟩

/-- The invariant is kept by every operation of a run, in the form that runs are followed in. -/
theorem consistent_kept (hresizable : Resizable factory) :
    Kept factory (Consistent factory) where
  start h := h.start
  stop _ := { present := nofun, absent := nofun }
  cancel h := ⟨h.present, h.absent⟩
  reconfigure config h := h.reconfigure hresizable config
  clearTraces h := h.clearTraces
  tick draw _ r h := h.tick draw r

theorem consistent_reached (hresizable : Resizable factory) (config : Config) (state : φ)
    (ops : List (Operation ρ)) (r : ρ) :
    Consistent factory (reached factory config state ops r) :=
  (consistent_kept hresizable).performAll ops r { present := nofun, absent := nofun }

end Keeping

/-! ## What is done, and when -/

section Doing

variable {factory : Factory σ φ} {s : Simulation σ φ}

/-- A rebuild checks the configuration before it asks the factory for an engine of it. -/
theorem recorded_rebuild {s : Simulation σ (φ × List Config)}
    (h : ∀ asked ∈ s.factoryState.2, asked.check = .ok ()) :
    ∀ asked ∈ (s.rebuild (recorded factory)).2.factoryState.2, asked.check = .ok () := by
  generalize hresult : s.rebuild (recorded factory) = result
  have hrebuilt := rebuild_cases (recorded factory) s
  rw [hresult] at hrebuilt
  -- Where the factory is asked, the configuration has passed and comes first in its memory.
  have hasked : s.config.check = .ok () → ∀ made state,
      recorded factory s.config s.factoryState = (made, state) →
        ∀ asked ∈ state.2, asked.check = .ok () := by
    rintro hcheck _ _ ⟨⟩ asked (_ | ⟨_, hmem⟩)
    · exact hcheck
    · exact h asked hmem
  cases hrebuilt with
  | refused hcheck => exact h
  | built hcheck hmade => exact hasked hcheck _ _ hmade
  | failed hcheck hmade => exact hasked hcheck _ _ hmade

/-- A rebuild that succeeds leaves a loop that runs, if its flag is down. -/
theorem isRunning_of_rebuild (hcancelled : s.cancelled = false)
    (h : (s.rebuild factory).1 = .ok ()) : (s.rebuild factory).2.isRunning = true := by
  generalize hresult : s.rebuild factory = result at h ⊢
  have hrebuilt := rebuild_cases factory s
  rw [hresult] at hrebuilt
  cases hrebuilt with
  | refused => cases h
  | built => exact isRunning_iff.mpr ⟨⟨_, rfl⟩, hcancelled⟩
  | failed => cases h

/-- A start that succeeds leaves a loop that runs, whether it was running before or not. -/
theorem isRunning_of_start (h : (s.start factory).1 = .ok ()) :
    (s.start factory).2.isRunning = true := by
  cases hrunning : s.isRunning with
  | true =>
    rw [start_of_running hrunning]
    exact isRunning_iff.mpr ⟨(isRunning_iff.mp hrunning).1, rfl⟩
  | false =>
    rw [start_of_not_running hrunning] at h ⊢
    exact isRunning_of_rebuild rfl h

theorem heed_ticks : s.heed.ticks = s.ticks := by
  unfold heed
  split <;> rfl

variable [Engine σ]

/-- A factory is only ever asked for an engine of a valid configuration. The calls are those that a
rebuild makes, and every operation makes them through a rebuild or not at all. -/
theorem recorded_kept :
    Kept (recorded factory) fun s => ∀ asked ∈ s.factoryState.2, asked.check = .ok () where
  start {s} h := by
    cases hrunning : s.isRunning with
    | true =>
      rw [start_of_running hrunning]
      exact h
    | false =>
      rw [start_of_not_running hrunning]
      exact recorded_rebuild h
  stop h := h
  cancel h := h
  reconfigure {s} config h := by
    generalize hresult : s.reconfigure (recorded factory) config = result
    have hcases := reconfigure_cases (recorded factory) s config
    rw [hresult] at hcases
    cases hcases with
    | restarted hcheck hwanted hchange =>
      rw [restart_eq]
      exact recorded_rebuild h
    | refused | kept | unchanged | resized | unsized => exact h
  clearTraces h := h
  tick {_} draw {s} r h := by
    cases hrunning : s.isRunning with
    | false =>
      rw [tick_of_not_running hrunning]
      unfold heed
      split <;> exact h
    | true =>
      obtain ⟨⟨engine, hengine⟩, hcancelled⟩ := isRunning_iff.mp hrunning
      rw [tick_of_running hengine hcancelled]
      exact h

/-- A reconfiguration of a loop that is wanted leaves it running where it succeeds, whatever it
took. -/
theorem isRunning_of_reconfigure {config : Config} {change : Change} (hwanted : s.wanted = true)
    (hcancelled : s.cancelled = false) (h : (s.reconfigure factory config).1 = .ok change) :
    (s.reconfigure factory config).2.isRunning = true := by
  generalize hresult : s.reconfigure factory config = result at h ⊢
  have hcases := reconfigure_cases factory s config
  rw [hresult] at hcases
  cases hcases with
  | refused | unsized => cases h
  | kept hcheck hunwanted =>
    rw [hwanted] at hunwanted
    cases hunwanted
  | unchanged hcheck hyes hchange hengine =>
    exact isRunning_iff.mpr ⟨⟨_, hengine⟩, hcancelled⟩
  | resized => exact isRunning_iff.mpr ⟨⟨_, rfl⟩, hcancelled⟩
  | restarted hcheck hyes hchange =>
    rw [restart_eq] at h ⊢
    refine isRunning_of_rebuild hcancelled ?_
    generalize ({ s with config }.rebuild factory).1 = built at h
    cases built with
    | error cause => cases h
    | ok => rfl

/-- **The invariant of a loop**, in every state that a run reaches: an engine is there only where it
is wanted and the configuration is valid; a loop that is wanted and has none says why; the factory
was only ever asked for valid configurations; a tick steps the engine and draws one frame if the
loop runs, and does nothing but heed the flag if it does not; and a start or a reconfiguration that
succeeds leaves a loop that runs. -/
theorem reached_invariant (hresizable : Resizable factory) (config : Config) (state : φ)
    (ops : List (Operation ρ)) (r : ρ) :
    let s := reached factory config state ops r
    let remembering := reached (recorded factory) config (state, []) ops r
    (∀ engine, s.engine = some engine → s.wanted = true ∧ s.config.check = .ok ()) ∧
    (s.wanted = true → s.engine = none →
      ∃ cause, s.status = some cause.message ∧ Refused factory s cause) ∧
    (s = remembering.map id Prod.fst ∧
      ∀ asked ∈ remembering.factoryState.2, asked.check = .ok ()) ∧
    (s.isRunning = true → ∃ engine, s.engine = some engine ∧ ∀ (draw : Drawing ρ) r,
      s.tick draw r =
        (some (Engine.step engine).1,
          { s with
            engine := some (Engine.step engine).2
            cancelled := (draw (Engine.scene (Engine.step engine).2) r).1
            ticks := s.ticks + 1
            status := (Engine.step engine).1.status? },
          (draw (Engine.scene (Engine.step engine).2) r).2)) ∧
    (s.isRunning = false → ∀ (draw : Drawing ρ) r,
      s.tick draw r = (none, s.heed, r) ∧ s.heed.ticks = s.ticks) ∧
    ((s.start factory).1 = .ok () → (s.start factory).2.isRunning = true) ∧
    (∀ next change, s.wanted = true → s.cancelled = false →
      (s.reconfigure factory next).1 = .ok change →
        (s.reconfigure factory next).2.isRunning = true) := by
  intro s remembering
  have hs : Consistent factory s := consistent_reached hresizable config state ops r
  refine ⟨fun engine hengine => ?_, hs.absent, ⟨?_, ?_⟩, fun hrunning => ?_,
    fun hrunning draw r => ?_, isRunning_of_start, fun next change => isRunning_of_reconfigure⟩
  · obtain ⟨hwanted, hcheck, -⟩ := hs.present hengine
    exact ⟨hwanted, hcheck⟩
  · exact (recorded_projects factory).reached config (state, []) ops r
  · exact recorded_kept.performAll ops r nofun
  · obtain ⟨⟨engine, hengine⟩, hcancelled⟩ := isRunning_iff.mp hrunning
    exact ⟨engine, hengine, fun draw r => tick_of_running hengine hcancelled draw r⟩
  · exact ⟨tick_of_not_running hrunning draw r, heed_ticks⟩

end Doing

/-! ## Flows -/

open CommandLine (flowFactory)

/-- Flows take every size of a canvas, and a valid configuration has one. -/
theorem flow_resizable : Resizable flowFactory := by
  intro flow _ width height hsize
  exact ⟨flow.refresh width height, Flow.resize_eq hsize flow⟩

/-- A running loop of flows that is given a canvas without width is still wanted, and says why it is
idle. -/
theorem reached_invariant_of_no_width :
    Resizable flowFactory ∧
      let s := reached flowFactory Config.default ()
        [Operation.start, .reconfigure { Config.default with width := 0 }] ()
      s.wanted = true ∧ s.engine = none ∧
        ∃ cause, s.status = some cause.message ∧ Refused flowFactory s cause := by
  have hwanted : (reached flowFactory Config.default ()
      [Operation.start, .reconfigure { Config.default with width := 0 }] ()).wanted = true := by
    decide +kernel
  have hengine : (reached flowFactory Config.default ()
      [Operation.start, .reconfigure { Config.default with width := 0 }] ()).engine = none :=
    Option.isNone_iff_eq_none.mp (by decide +kernel)
  exact ⟨flow_resizable, hwanted, hengine,
    (reached_invariant flow_resizable _ _ _ _).2.1 hwanted hengine⟩

end PhasePortrait.Simulation
