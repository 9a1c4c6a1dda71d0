import PhasePortrait.CommandLine.Render
import PhasePortrait.Proofs.Config.Agreement
import PhasePortrait.Proofs.Flow
import PhasePortrait.Proofs.Simulation.Projection

/-!
# What a restart leaves behind

A loop of flows is started, stopped, cancelled and reconfigured in any order; what it holds in the
end should be what its last rebuild and the ticks since then make of it, and nothing of what went
before. To say so, every engine keeps a **journal**: the configuration it was built for, and what
was done to its particles since then (`Journaled`). A loop that keeps journals is the loop, with
something to remember (`journaled_projects`).

The journal does not name resizes, and that is the point: a resize moves no particle. The scene is
another matter. It is made from the particles for the size that the configuration has now, and
before the first of the deeds it may still be blank.
-/

namespace PhasePortrait.Simulation

variable {σ φ ρ : Type}

/-- What is done to the particles of an engine. -/
inductive Deed where
  | stepped
  | cleared
deriving DecidableEq

/-- An engine with its journal. -/
structure Journaled (σ : Type) where
  engine : σ
  /-- The configuration it was built for. -/
  built : Config
  /-- What was done to it since then, the first deed first. -/
  deeds : List Deed

/-- The engine after one deed. -/
def Deed.perform [Engine σ] (engine : σ) : Deed → σ
  | stepped => (Engine.step engine).2
  | cleared => Engine.clearTraces engine

/-- The engine after some deeds. -/
def replay [Engine σ] (engine : σ) (deeds : List Deed) : σ := deeds.foldl Deed.perform engine

/-- A deed that is added to a journal is done after all others. -/
theorem replay_append [Engine σ] (engine : σ) (deeds : List Deed) (deed : Deed) :
    replay engine (deeds ++ [deed]) = deed.perform (replay engine deeds) := by
  simp only [replay, List.foldl_append, List.foldl_cons, List.foldl_nil]

/-- An engine with its journal is an engine. Its steps and its clearings are written down, and its
resizes are not. -/
instance [Engine σ] : Engine (Journaled σ) where
  step j := ((Engine.step j.engine).1,
    { j with engine := (Engine.step j.engine).2, deeds := j.deeds ++ [.stepped] })
  scene j := Engine.scene j.engine
  resize j width height := (Engine.resize j.engine width height).map fun engine => { j with engine }
  clearTraces j :=
    { j with engine := Engine.clearTraces j.engine, deeds := j.deeds ++ [.cleared] }
  params j := Engine.params j.engine
  schema j := Engine.schema j.engine

/-- The factory whose engines keep a journal. -/
def journaled (factory : Factory σ φ) : Factory (Journaled σ) φ := fun config state =>
  ((factory config state).1.map fun engine => ⟨engine, config, []⟩, (factory config state).2)

/-- A loop that keeps journals is the loop, with the journals forgotten. -/
theorem journaled_projects [Engine σ] (factory : Factory σ φ) :
    Projects Journaled.engine id (journaled factory) factory where
  make config state := by
    rcases hmade : factory config state with ⟨_ | engine, after⟩ <;>
      simp only [journaled, id, hmade, Except.map]
  step _ := rfl
  scene _ := rfl
  resize j width height := by
    change Engine.resize j.engine width height =
      ((Engine.resize j.engine width height).map fun engine => { j with engine }).map
        Journaled.engine
    cases Engine.resize j.engine width height <;> rfl
  clearTraces _ := rfl

/-! ## Flows -/

open CommandLine (flowFactory)

/-- What the scene of a flow may be: blank, as long as nothing was done, or made of its particles as
they are. -/
def Shown (flow : Flow) (deeds : List Deed) (width height : Nat) (background : Rgb Float) : Prop :=
  flow.scene = .blank width height background ∧ deeds = [] ∨
    flow.scene = Flow.view flow.population flow.colors width height background

/-- **The invariant of a journal.** It says of a flow all there is to say. -/
structure Faithful (s : Simulation (Journaled Flow) Unit) (j : Journaled Flow) : Prop where
  wanted : s.wanted = true
  /-- The loop has gone on with configurations that differ in their sizes only. -/
  agrees : j.built.bare = s.config.bare
  /-- The flow is what the deeds make of a new one. -/
  replayed : ∃ fresh, Flow.ofConfig j.built = .ok fresh ∧ j.engine.Alike (replay fresh j.deeds)
  counted : j.deeds.count .stepped = s.ticks
  ticked : j.engine.population.tick = s.ticks
  shown : Shown j.engine j.deeds s.config.width s.config.height j.built.background

section Flows

variable {s : Simulation (Journaled Flow) Unit} {j : Journaled Flow}

/-- The background of a flow is that of the configuration it was built for. -/
theorem Faithful.background (h : Faithful s j) : j.engine.scene.background = j.built.background := by
  obtain ⟨hscene, -⟩ | hscene := h.shown <;> rw [hscene] <;> rfl

/-- The scene of a flow has the size that the configuration has now. -/
theorem Faithful.size (h : Faithful s j) :
    j.engine.scene.width = s.config.width ∧ j.engine.scene.height = s.config.height := by
  obtain ⟨hscene, -⟩ | hscene := h.shown <;> rw [hscene] <;> exact ⟨rfl, rfl⟩

/-- A new journal is that of a new flow, and empty. -/
theorem eq_of_made {config : Config} {state after : Unit}
    (hmade : journaled flowFactory config state = (.ok j, after)) :
    ∃ flow, Flow.ofConfig config = .ok flow ∧ j = ⟨flow, config, []⟩ := by
  have hfresh : (Flow.ofConfig config).map (fun flow => (⟨flow, config, []⟩ : Journaled Flow)) =
      .ok j := congrArg Prod.fst hmade
  cases hflow : Flow.ofConfig config with
  | error cause => rw [hflow] at hfresh; cases hfresh
  | ok flow =>
    rw [hflow] at hfresh
    exact ⟨flow, rfl, (Except.ok.inj hfresh).symm⟩

/-- A loop that was just built holds a flow that is faithful to an empty journal. -/
theorem faithful_of_built (hwanted : s.wanted = true) {state : Unit}
    (hmade : journaled flowFactory s.config s.factoryState = (.ok j, state)) :
    Faithful { s with engine := some j, ticks := 0, status := none, factoryState := state } j := by
  obtain ⟨flow, hflow, rfl⟩ := eq_of_made hmade
  obtain ⟨hscene, htick⟩ := Flow.fresh_of_ofConfig hflow
  exact {
    wanted := hwanted
    agrees := rfl
    replayed := ⟨flow, hflow, .refl flow⟩
    counted := rfl
    ticked := htick
    shown := .inl ⟨hscene, rfl⟩ }

/-- A flow takes every size of a valid configuration, and its journal is not told. -/
theorem resize_journaled {config : Config} (hcheck : config.check = .ok ()) (j : Journaled Flow) :
    Engine.resize j config.width config.height =
      .ok { j with engine := j.engine.refresh config.width config.height } := by
  show (Flow.resize j.engine config.width config.height).map _ = _
  rw [Flow.resize_eq (Config.checkDimensions_of_check hcheck)]
  rfl

/-- A resize changes the scene and the configuration alike, and the journal stays true of the
flow. -/
theorem Faithful.resized (h : Faithful s j) {config : Config}
    (hchange : s.config.changeTo config = .resize) :
    let resized : Journaled Flow :=
      { j with engine := j.engine.refresh config.width config.height }
    Faithful { s with config, engine := some resized } resized := by
  intro resized
  obtain ⟨fresh, hfresh, halike⟩ := h.replayed
  exact {
    wanted := h.wanted
    agrees := h.agrees.trans (Config.bare_eq_of_changeTo (by rw [hchange]; nofun))
    replayed := ⟨fresh, hfresh, halike.refresh _ _⟩
    counted := h.counted
    ticked := h.ticked
    shown := .inr (by rw [← h.background]; rfl) }

/-- A tick adds a step to the journal, and steps the flow that the journal is of. The scene is made
anew by it, for the size that the configuration has now. -/
theorem Faithful.stepped (h : Faithful s j) (cancelled : Bool) (status : Option String) :
    Faithful
      { s with engine := some (Engine.step j).2, cancelled, ticks := s.ticks + 1, status }
      (Engine.step j).2 := by
  obtain ⟨fresh, hfresh, halike⟩ := h.replayed
  obtain ⟨hwidth, hheight⟩ := h.size
  refine
    { wanted := h.wanted
      agrees := h.agrees
      replayed := ⟨fresh, hfresh, ?_⟩
      counted := ?_
      ticked := congrArg (· + 1) h.ticked
      shown := .inr ?_ }
  · change (Flow.step j.engine).2.Alike (replay fresh (j.deeds ++ [.stepped]))
    rw [replay_append]
    exact halike.step
  · change (j.deeds ++ [Deed.stepped]).count .stepped = s.ticks + 1
    rw [List.count_append, h.counted]
    rfl
  · change Flow.view _ _ j.engine.scene.width j.engine.scene.height j.engine.scene.background = _
    rw [hwidth, hheight, h.background]
    rfl

theorem Faithful.cleared (h : Faithful s j) :
    Faithful { s with engine := some (Engine.clearTraces j) } (Engine.clearTraces j) := by
  obtain ⟨fresh, hfresh, halike⟩ := h.replayed
  obtain ⟨hwidth, hheight⟩ := h.size
  refine
    { wanted := h.wanted
      agrees := h.agrees
      replayed := ⟨fresh, hfresh, ?_⟩
      counted := ?_
      ticked := h.ticked
      shown := .inr ?_ }
  · change (Flow.clearTraces j.engine).Alike (replay fresh (j.deeds ++ [.cleared]))
    rw [replay_append]
    exact halike.clearTraces
  · change (j.deeds ++ [Deed.cleared]).count .stepped = s.ticks
    rw [List.count_append, h.counted]
    rfl
  · change Flow.view _ _ j.engine.scene.width j.engine.scene.height j.engine.scene.background = _
    rw [hwidth, hheight, h.background]
    rfl

/-- What a loop says of a journal in its configuration and its ticks is all that matters: the flags
and the status do not. -/
theorem Faithful.congr (h : Faithful s j) {t : Simulation (Journaled Flow) Unit}
    (hwanted : t.wanted = true) (hbare : s.config.bare = t.config.bare)
    (hwidth : s.config.width = t.config.width) (hheight : s.config.height = t.config.height)
    (hticks : s.ticks = t.ticks) : Faithful t j where
  wanted := hwanted
  agrees := h.agrees.trans hbare
  replayed := h.replayed
  counted := h.counted.trans hticks
  ticked := h.ticked.trans hticks
  shown := by rw [← hwidth, ← hheight]; exact h.shown

/-- A rebuild of a loop that is wanted starts a new journal. -/
theorem faithful_rebuild (hwanted : s.wanted = true)
    (hengine : (s.rebuild (journaled flowFactory)).2.engine = some j) :
    Faithful (s.rebuild (journaled flowFactory)).2 j := by
  generalize hresult : s.rebuild (journaled flowFactory) = result at hengine ⊢
  have hrebuilt := rebuild_cases (journaled flowFactory) s
  rw [hresult] at hrebuilt
  cases hrebuilt with
  | refused => cases hengine
  | built hcheck hmade =>
    obtain rfl := Option.some.inj hengine
    exact faithful_of_built hwanted hmade
  | failed => cases hengine

/-- A reconfiguration leaves the old flow with its journal, or makes a new one with an empty
journal. It never leaves a flow with a journal of another one. -/
theorem faithful_reconfigure (h : ∀ j, s.engine = some j → Faithful s j) (config : Config)
    (hengine : (s.reconfigure (journaled flowFactory) config).2.engine = some j) :
    Faithful (s.reconfigure (journaled flowFactory) config).2 j := by
  generalize hresult : s.reconfigure (journaled flowFactory) config = result at hengine ⊢
  have hcases := reconfigure_cases (journaled flowFactory) s config
  rw [hresult] at hcases
  cases hcases with
  | refused => cases hengine
  | kept hcheck hunwanted =>
    -- There is no engine where none is wanted.
    have hwanted := (h j hengine).wanted
    rw [hunwanted] at hwanted
    cases hwanted
  | unchanged hcheck hwanted hchange hpresent =>
    obtain ⟨hwidth, hheight⟩ := Config.size_eq_of_unchanged hchange
    exact (h j hengine).congr hwanted
      (Config.bare_eq_of_changeTo (by rw [hchange]; nofun)) hwidth hheight rfl
  | resized hcheck hwanted hchange hpresent hresize =>
    obtain rfl := Option.some.inj hengine
    rw [resize_journaled hcheck] at hresize
    obtain rfl := Except.ok.inj hresize
    exact (h _ hpresent).resized hchange
  | unsized hcheck hwanted hchange hpresent hresize =>
    rw [resize_journaled hcheck] at hresize
    cases hresize
  | restarted hcheck hwanted hchange =>
    rw [restart_eq] at hengine ⊢
    exact faithful_rebuild hwanted hengine

/-- Every operation keeps what a loop holds faithful to its journal. Stopping drops both, and
operations that touch flags and status alone leave both as they are. -/
theorem faithful_kept :
    Kept (journaled flowFactory) fun s => ∀ j, s.engine = some j → Faithful s j where
  start {s} h j hengine := by
    cases hrunning : s.isRunning with
    | true =>
      rw [start_of_running hrunning] at hengine ⊢
      exact (h j hengine).congr rfl rfl rfl rfl rfl
    | false =>
      rw [start_of_not_running hrunning] at hengine ⊢
      exact faithful_rebuild rfl hengine
  stop _ j hengine := by cases hengine
  cancel h j hengine := (h j hengine).congr (h j hengine).wanted rfl rfl rfl rfl
  reconfigure config h j hengine := faithful_reconfigure h config hengine
  clearTraces {s} h j hengine := by
    obtain ⟨before, hbefore, rfl⟩ := Option.map_eq_some_iff.mp hengine
    have hcleared := (h before hbefore).cleared
    exact hcleared.congr hcleared.wanted rfl rfl rfl rfl
  tick {_} draw {s} r h j hengine := by
    cases hrunning : s.isRunning with
    | false =>
      rw [tick_of_not_running hrunning] at hengine ⊢
      have hheed := heed_eq_self hengine
      dsimp only at hengine ⊢
      rw [hheed] at hengine ⊢
      exact h j hengine
    | true =>
      obtain ⟨⟨before, hbefore⟩, hcancelled⟩ := isRunning_iff.mp hrunning
      rw [tick_of_running hbefore hcancelled] at hengine ⊢
      obtain rfl := Option.some.inj hengine
      exact (h before hbefore).stepped _ _

end Flows

/-- A loop that was given another canvas while it ran holds a flow. -/
example : (reached flowFactory Config.default () [Operation.start,
    .reconfigure { Config.default with width := 4, height := 3 }] ()).isRunning = true := by
  decide +kernel

end PhasePortrait.Simulation
