import PhasePortrait.CommandLine.Render
import PhasePortrait.Proofs.Setup
import PhasePortrait.Proofs.Simulation.Cancelling
import PhasePortrait.Proofs.Simulation.Projection

/-!
# Reconfiguring under a raised flag

A loop that was stopped is `Halted`: nothing is wanted of it, it has no engine, and its flag is up.
Until the next start it stays so, and a valid configuration that it is given is kept and nothing
else: no engine is built, and the answer is the change that was asked for.

**Raising the flag does not halt a loop.** The next tick does, if there is an engine to drop. Before
that tick, and in a loop that idles on a bad configuration until it is stopped, the loop is still
wanted; and a reconfiguration asks whether the loop is wanted and not whether its flag is up. So it
builds an engine under the raised flag wherever it would build one without (`Rebuilds`), and says that
it restarted a loop that does not run (`rebuilt_under_flag`). The engine never ticks.

Which states these are is all that `reconfigured_under_flag` has to say: outside of them a
reconfiguration under a raised flag asks no factory.
-/

namespace PhasePortrait.Simulation

variable {σ φ ρ : Type}

/-- Stopped, by hand or by a tick that found the flag up. -/
structure Halted (s : Simulation σ φ) : Prop where
  unwanted : s.wanted = false
  empty : s.engine = none
  raised : s.cancelled = true

/-- Whether a valid configuration makes the loop ask its factory: an engine is wanted, and there is
none that could be kept. -/
def Rebuilds (s : Simulation σ φ) (next : Config) : Prop :=
  s.wanted = true ∧ (s.config.changeTo next = .restart ∨ s.engine.isNone = true)

instance (s : Simulation σ φ) (next : Config) : Decidable (s.Rebuilds next) :=
  inferInstanceAs (Decidable (_ ∧ (_ ∨ _)))

variable {factory : Factory σ φ} {s : Simulation σ φ} {next : Config}

/-! ## Halted loops -/

theorem halted_stop (s : Simulation σ φ) : Halted s.stop := ⟨rfl, rfl, rfl⟩

/-- A halted loop asks for nothing, so a configuration is only kept. -/
theorem Halted.not_rebuilds (h : Halted s) (next : Config) : ¬s.Rebuilds next := by
  rintro ⟨hwanted, -⟩
  rw [h.unwanted] at hwanted
  cases hwanted

/-- The flag drops the engine, if there is one. -/
theorem heed_of_raised (hraised : s.cancelled = true) (hengine : s.engine ≠ none) :
    s.heed = s.stop := by
  have hsome : s.engine.isSome = true := Option.isSome_iff_ne_none.mpr hengine
  simp [heed, hraised, hsome]

section Keeping

variable [Engine σ]

/-- A reconfiguration leaves a loop halted, whether the configuration is valid or not. -/
theorem Halted.reconfigure (h : Halted s) (factory : Factory σ φ) (next : Config) :
    Halted (s.reconfigure factory next).2 := by
  generalize hresult : s.reconfigure factory next = result
  have hcases := reconfigure_cases factory s next
  rw [hresult] at hcases
  cases hcases with
  | refused => exact ⟨h.unwanted, rfl, h.raised⟩
  | kept => exact ⟨h.unwanted, h.empty, h.raised⟩
  | unchanged hcheck hwanted | resized hcheck hwanted | unsized hcheck hwanted
  | restarted hcheck hwanted =>
    rw [h.unwanted] at hwanted
    cases hwanted

/-- Only a start ends it. Of all other operations none sets the wish for an engine, and without that
none is built. -/
theorem Halted.perform (h : Halted s) (factory : Factory σ φ) (r : ρ) {op : Operation ρ}
    (hop : op ≠ .start) : Halted (s.perform factory r op).2.1 := by
  have hidle : s.isRunning = false := isRunning_of_cancelled h.raised
  cases op with
  | start => exact absurd rfl hop
  | stop => exact halted_stop s
  | cancel => exact ⟨h.unwanted, h.empty, rfl⟩
  | reconfigure next => exact h.reconfigure factory next
  | clearTraces => exact ⟨h.unwanted, Option.map_eq_none_iff.mpr h.empty, h.raised⟩
  | tick draw =>
    simp only [Simulation.perform, tick_of_not_running hidle, heed_of_empty h.empty]
    exact h
  | runFor draw n =>
    simp only [Simulation.perform, runFor_of_not_running hidle, heed_of_empty h.empty, ite_self]
    exact h

theorem Halted.performAll (h : Halted s) (factory : Factory σ φ) (r : ρ)
    {ops : List (Operation ρ)} (hops : ∀ op ∈ ops, op ≠ .start) :
    Halted (performAll factory ops s r).2.1 := by
  induction ops generalizing s r with
  | nil => exact h
  | cons op ops ih =>
    have hnext := h.perform factory r (hops op List.mem_cons_self)
    exact ih hnext _ fun later hlater => hops later (List.mem_cons_of_mem _ hlater)

/-- A loop has an engine only while it is wanted. A stop takes both away, and engines are built for
loops that are wanted alone. -/
theorem empty_kept (factory : Factory σ φ) :
    Kept factory fun s => s.wanted = false → s.engine = none where
  start {s} _ hunwanted := by
    have hwanted : (s.start factory).2.wanted = true := by
      cases hrunning : s.isRunning with
      | true => rw [start_of_running hrunning]
      | false =>
        rw [start_of_not_running hrunning]
        exact (rebuild_keeps factory _).2.1
    rw [hwanted] at hunwanted
    cases hunwanted
  stop _ _ := rfl
  cancel h := h
  reconfigure {s} next h := by
    generalize hresult : s.reconfigure factory next = result
    have hcases := reconfigure_cases factory s next
    rw [hresult] at hcases
    intro hunwanted
    cases hcases with
    | refused => rfl
    | kept => exact h hunwanted
    | unchanged hcheck hwanted | resized hcheck hwanted | unsized hcheck hwanted =>
      cases hwanted.symm.trans hunwanted
    | restarted hcheck hwanted =>
      rw [restart_eq, (rebuild_keeps factory { s with config := next }).2.1] at hunwanted
      cases hwanted.symm.trans hunwanted
  clearTraces h hunwanted := Option.map_eq_none_iff.mpr (h hunwanted)
  tick draw s r h := by
    cases hrunning : s.isRunning with
    | false =>
      rw [tick_of_not_running hrunning]
      unfold heed
      split
      · intro _
        rfl
      · exact h
    | true =>
      obtain ⟨⟨engine, hengine⟩, hcancelled⟩ := isRunning_iff.mp hrunning
      rw [tick_of_running hengine hcancelled]
      intro hunwanted
      have hempty := h hunwanted
      rw [hengine] at hempty
      cases hempty

end Keeping

/-! ## What a reconfiguration asks for -/

/-- A valid configuration is asked for once. -/
theorem asked_rebuild {s : Simulation σ (φ × List Config)} (hcheck : s.config.check = .ok ()) :
    (s.rebuild (recorded factory)).2.factoryState.2 = s.config :: s.factoryState.2 := by
  have hasked : ∀ made state, recorded factory s.config s.factoryState = (made, state) →
      state.2 = s.config :: s.factoryState.2 := by
    rintro _ _ ⟨⟩
    rfl
  generalize hresult : s.rebuild (recorded factory) = result
  have hrebuilt := rebuild_cases (recorded factory) s
  rw [hresult] at hrebuilt
  cases hrebuilt with
  | refused hrefused => cases hcheck.symm.trans hrefused
  | built _ hmade => exact hasked _ _ hmade
  | failed _ hmade => exact hasked _ _ hmade

section Asking

variable [Engine σ]

/-- Where a reconfiguration rebuilds, it is the rebuild that answers. It lowers no flag, so a loop
whose flag is up has its new engine and does not run. -/
theorem reconfigure_of_rebuilds (factory : Factory σ φ) (hcheck : next.check = .ok ())
    (h : s.Rebuilds next) :
    s.reconfigure factory next =
      (({ s with config := next }.rebuild factory).1.map fun () => Change.restart,
        ({ s with config := next }.rebuild factory).2) := by
  obtain ⟨hwanted, hchange⟩ := h
  rw [← restart_eq]
  generalize hresult : s.reconfigure factory next = result
  have hcases := reconfigure_cases factory s next
  rw [hresult] at hcases
  cases hcases with
  | refused hrefused => cases hcheck.symm.trans hrefused
  | kept _ hunwanted => cases hwanted.symm.trans hunwanted
  | restarted => rfl
  | unchanged _ _ hsame hengine | resized _ _ hsame hengine | unsized _ _ hsame hengine =>
    -- An engine that could be kept is no reason to rebuild.
    rcases hchange with hchange | hempty
    · cases hsame.symm.trans hchange
    · rw [hengine] at hempty
      cases hempty

/-- Without a rebuild a valid configuration is kept and the answer is the change that it asks for,
or the engine is asked to take another size. -/
theorem reconfigure_of_not_rebuilds (factory : Factory σ φ) (hcheck : next.check = .ok ())
    (h : ¬s.Rebuilds next) :
    s.reconfigure factory next = (.ok (s.config.changeTo next), { s with config := next }) ∨
    s.wanted = true ∧ s.config.changeTo next = .resize ∧ ∃ engine, s.engine = some engine ∧
      ((∃ resized, Engine.resize engine next.width next.height = .ok resized ∧
        s.reconfigure factory next =
          (.ok .resize, { s with config := next, engine := some resized })) ∨
      ∃ cause, Engine.resize engine next.width next.height = .error cause ∧
        s.reconfigure factory next = (.error cause, { s with config := next })) := by
  generalize hresult : s.reconfigure factory next = result
  have hcases := reconfigure_cases factory s next
  rw [hresult] at hcases
  cases hcases with
  | refused hrefused => cases hcheck.symm.trans hrefused
  | kept => exact .inl rfl
  | unchanged _ _ hchange =>
    left
    rw [hchange]
  | resized _ hwanted hchange hengine hresize =>
    exact .inr ⟨hwanted, hchange, _, hengine, .inl ⟨_, hresize, rfl⟩⟩
  | unsized _ hwanted hchange hengine hresize =>
    exact .inr ⟨hwanted, hchange, _, hengine, .inr ⟨_, hresize, rfl⟩⟩
  | restarted _ hwanted hchange =>
    apply absurd _ h
    rcases hchange with hchange | hempty
    · exact ⟨hwanted, .inl hchange⟩
    · exact ⟨hwanted, .inr (Option.isNone_iff_eq_none.mpr hempty)⟩

/-- **The calls of a reconfiguration**: one, for the new configuration, exactly where it rebuilds. -/
theorem asked_reconfigure {s : Simulation σ (φ × List Config)} (hcheck : next.check = .ok ()) :
    (s.reconfigure (recorded factory) next).2.factoryState.2 =
      (if s.Rebuilds next then [next] else []) ++ s.factoryState.2 := by
  by_cases hrebuilds : s.Rebuilds next
  · rw [if_pos hrebuilds, reconfigure_of_rebuilds _ hcheck hrebuilds]
    exact asked_rebuild (s := { s with config := next }) hcheck
  · rw [if_neg hrebuilds]
    rcases reconfigure_of_not_rebuilds (recorded factory) hcheck hrebuilds with
      heq | ⟨-, -, engine, -, ⟨resized, -, heq⟩ | ⟨cause, -, heq⟩⟩ <;> rw [heq] <;> rfl

/-- A halted loop answers what the change would ask for, and keeps the configuration. -/
theorem Halted.reconfigure_eq (h : Halted s) (factory : Factory σ φ)
    (hcheck : next.check = .ok ()) :
    s.reconfigure factory next = (.ok (s.config.changeTo next), { s with config := next }) := by
  rcases reconfigure_of_not_rebuilds factory hcheck (h.not_rebuilds next) with heq | ⟨hwanted, -⟩
  · exact heq
  · cases hwanted.symm.trans h.unwanted

theorem wanted_reconfigure (factory : Factory σ φ) (next : Config) (s : Simulation σ φ) :
    (s.reconfigure factory next).2.wanted = s.wanted := by
  generalize hresult : s.reconfigure factory next = result
  have hcases := reconfigure_cases factory s next
  rw [hresult] at hcases
  cases hcases with
  | refused | kept | unchanged | resized | unsized => rfl
  | restarted =>
    rw [restart_eq]
    exact (rebuild_keeps factory { s with config := next }).2.1

/-- **What a reconfiguration does under a raised flag.** Take any state that a run reaches with its
flag up, and any run from there without a start. The flag stays up and no engine ticks.

A loop that was stopped is halted, and so is every loop after a tick that found an engine under the
flag: it keeps each valid configuration, asks no factory, and answers with the change. A loop that
is still wanted does as it would without the flag. The factory is asked exactly where the change
needs another engine or where there is none, the answer is then that of the rebuild, and the new
engine does not run. -/
theorem reconfigured_under_flag (factory : Factory σ φ) (config : Config) (state : φ)
    (ops later : List (Operation ρ)) (r r' : ρ)
    (hraised : (reached (recorded factory) config (state, []) ops r).cancelled = true)
    (hlater : ∀ op ∈ later, op ≠ .start) :
    let s := reached (recorded factory) config (state, []) ops r
    let t := (performAll (recorded factory) later s r').2.1
    (t.cancelled = true ∧ t.isRunning = false) ∧
    (s.wanted = false → Halted t) ∧
    (∀ (draw : Drawing ρ) r, (t.tick draw r).1 = none ∧
      (t.engine ≠ none → Halted (t.tick draw r).2.1)) ∧
    ∀ next, next.check = .ok () →
      let after := t.reconfigure (recorded factory) next
      (after.2.config = next ∧ after.2.wanted = t.wanted ∧ after.2.isRunning = false) ∧
      after.2.factoryState.2 =
        (if t.Rebuilds next then [next] else []) ++ t.factoryState.2 ∧
      (Halted t → after = (.ok (t.config.changeTo next), { t with config := next })) ∧
      (¬t.Rebuilds next →
        after = (.ok (t.config.changeTo next), { t with config := next }) ∨
        t.wanted = true ∧ t.config.changeTo next = .resize ∧ ∃ engine, t.engine = some engine ∧
          ((∃ resized, Engine.resize engine next.width next.height = .ok resized ∧
            after = (.ok .resize, { t with config := next, engine := some resized })) ∨
          ∃ cause, Engine.resize engine next.width next.height = .error cause ∧
            after = (.error cause, { t with config := next }))) ∧
      (t.Rebuilds next →
        after = (({ t with config := next }.rebuild (recorded factory)).1.map fun () => .restart,
          ({ t with config := next }.rebuild (recorded factory)).2)) := by
  intro s t
  obtain ⟨ht, -⟩ := watch_of_cancelled (recorded factory) hraised r' hlater
  have hidle : t.isRunning = false := isRunning_of_cancelled ht
  have hempty : s.wanted = false → s.engine = none :=
    (empty_kept (recorded factory)).performAll ops r fun _ => rfl
  refine ⟨⟨ht, hidle⟩, ?_, ?_, ?_⟩
  · intro hunwanted
    have hs : Halted s := ⟨hunwanted, hempty hunwanted, hraised⟩
    exact hs.performAll (recorded factory) r' hlater
  · intro draw r
    rw [tick_of_not_running hidle]
    refine ⟨rfl, fun hengine => ?_⟩
    rw [heed_of_raised ht hengine]
    exact halted_stop t
  · intro next hcheck after
    obtain ⟨hcancelled, hconfig⟩ := reconfigure_of_cancelled (recorded factory) next ht
    exact ⟨⟨hconfig, wanted_reconfigure _ _ _, isRunning_of_cancelled hcancelled⟩,
      asked_reconfigure hcheck, fun hhalted => hhalted.reconfigure_eq _ hcheck,
      reconfigure_of_not_rebuilds _ hcheck, reconfigure_of_rebuilds _ hcheck⟩

end Asking

/-! ## Flows -/

open CommandLine (flowFactory)

/-- A small flow that turns about the origin. -/
def turning : Config :=
  { Config.default with dx := "-y", dy := "x", params := .ofMembers [("particle_count", .natural 3)] }

/-- A loop that was cancelled and then ticked is halted, and keeps a configuration that would
otherwise have asked for another engine. -/
theorem reconfigured_under_flag_of_turning :
    let s := reached (recorded flowFactory) turning ((), [])
      [Operation.start, .tick fun _ r => (false, r), .cancel] ()
    let t := (performAll (recorded flowFactory) [Operation.tick fun _ r => (false, r)] s ()).2.1
    let next := { turning with a := 1.0 }
    s.cancelled = true ∧ next.check = .ok () ∧ t.factoryState.2.length = 1 ∧
      (t.reconfigure (recorded flowFactory) next).2.factoryState.2.length = 1 := by
  intro s t next
  have hraised : s.cancelled = true := by decide +kernel
  have hcheck : next.check = .ok () := Config.check_eq_ok.mpr (by decide +kernel)
  have hstill : ¬t.Rebuilds next := by decide +kernel
  have hlength : t.factoryState.2.length = 1 := by decide +kernel
  refine ⟨hraised, hcheck, hlength, ?_⟩
  obtain ⟨-, -, -, hnext⟩ := reconfigured_under_flag flowFactory turning () _
    [Operation.tick fun _ r => (false, r)] () () hraised nofun
  obtain ⟨-, hasked, -⟩ := hnext next hcheck
  rw [hasked, if_neg hstill]
  exact hlength

/-- **Two engines are built under a raised flag.** A loop that was cancelled while it ran, and one
that was cancelled while it idled on a canvas without width, are given a valid configuration: each
asks its factory, has a new engine and does not run. The second one answers that it restarted, where
only the size of the canvas has changed. -/
theorem rebuilt_under_flag :
    let running := reached (recorded flowFactory) turning ((), []) [Operation.start, .cancel] ()
    let next := { turning with a := 1.0 }
    let idling := reached (recorded flowFactory) { turning with width := 0 } ((), [])
      [Operation.start, .cancel] ()
    (running.cancelled = true ∧ next.check = .ok () ∧ running.factoryState.2.length = 1 ∧
      (running.reconfigure (recorded flowFactory) next).2.factoryState.2.length = 2 ∧
      (running.reconfigure (recorded flowFactory) next).2.isRunning = false) ∧
    idling.cancelled = true ∧ turning.check = .ok () ∧ idling.engine.isNone = true ∧
      idling.factoryState.2.length = 0 ∧ idling.config.changeTo turning = .resize ∧
      (idling.reconfigure (recorded flowFactory) turning).1.toOption = some .restart ∧
      (idling.reconfigure (recorded flowFactory) turning).2.engine.isSome = true := by
  intro running next idling
  have hnext : next.check = .ok () := Config.check_eq_ok.mpr (by decide +kernel)
  have hturning : turning.check = .ok () := Config.check_eq_ok.mpr (by decide +kernel)
  refine ⟨⟨?_, hnext, ?_⟩, ?_, hturning, ?_⟩ <;> decide +kernel

end PhasePortrait.Simulation
