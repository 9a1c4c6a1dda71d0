import PhasePortrait.Proofs.Field
import PhasePortrait.Proofs.Flow.Scene
import PhasePortrait.Proofs.Simulation.Invariant
import PhasePortrait.Proofs.Simulation.Journal

/-!
# The line of status

A loop keeps one line for its user. It is set where an engine is built and at each tick, and left
alone by all the rest. While there is an engine it is therefore about the last tick of *this* engine,
and says nothing before the first one (`Told`): no message outlives the engine it was about.

Which tick was the last one is read in the journal. A clearing of the traces may stand behind it, and
resizes are not even noted; neither has anything to tell.
-/

namespace PhasePortrait.Simulation

variable {ρ : Type}

/-! ## The last tick of a journal -/

/-- Where the last tick stands in a journal that has got longer. -/
theorem last_tick_of_concat {deeds earlier later : List Deed} {deed : Deed}
    (h : deeds ++ [deed] = earlier ++ .stepped :: later) (hlater : .stepped ∉ later) :
    (deed = .stepped ∧ earlier = deeds) ∨
      deed ≠ .stepped ∧ ∃ between, deeds = earlier ++ .stepped :: between ∧ .stepped ∉ between := by
  rcases List.eq_nil_or_concat later with rfl | ⟨between, last, rfl⟩
  · obtain ⟨hdeeds, hdeed⟩ := List.append_inj' h rfl
    exact .inl ⟨List.head_eq_of_cons_eq hdeed, hdeeds.symm⟩
  · rw [List.concat_eq_append, List.mem_append, not_or] at hlater
    rw [List.concat_eq_append, ← List.cons_append, ← List.append_assoc] at h
    obtain ⟨hdeeds, hdeed⟩ := List.append_inj' h rfl
    obtain rfl := List.head_eq_of_cons_eq hdeed
    exact .inr ⟨fun hstep => hlater.2 (List.mem_singleton.mpr hstep.symm), between, hdeeds, hlater.1⟩

/-- A journal with ticks has a last one. -/
theorem exists_last_tick {deeds : List Deed} (h : .stepped ∈ deeds) :
    ∃ earlier later, deeds = earlier ++ .stepped :: later ∧ .stepped ∉ later := by
  obtain ⟨later, earlier, hdeeds, hlater⟩ := List.eq_append_cons_of_mem (List.mem_reverse.mpr h)
  refine ⟨earlier.reverse, later.reverse, ?_, mt List.mem_reverse.mp hlater⟩
  rw [← List.reverse_reverse deeds, hdeeds]
  simp

/-! ## What the line tells -/

open CommandLine (flowFactory)

/-- **What the line tells** of a journal: nothing before the first tick, and what the last one
reported after it. -/
structure Told (s : Simulation (Journaled Flow) Unit) (j : Journaled Flow) : Prop where
  before : .stepped ∉ j.deeds → s.status = none
  after : ∀ fresh earlier later, Flow.ofConfig j.built = .ok fresh →
    j.deeds = earlier ++ .stepped :: later → .stepped ∉ later →
      s.status = (replay fresh earlier).step.1.status?

section Flows

variable {s t : Simulation (Journaled Flow) Unit} {j k : Journaled Flow}

theorem Told.congr (h : Told s j) (hbuilt : k.built = j.built) (hdeeds : k.deeds = j.deeds)
    (hstatus : t.status = s.status) : Told t k := by
  refine ⟨?_, ?_⟩
  · rw [hdeeds, hstatus]
    exact h.before
  · rw [hbuilt, hdeeds, hstatus]
    exact h.after

theorem Told.stepped (h : Faithful s j) (ht : t.status = (Engine.step j).1.status?) :
    Told t (Engine.step j).2 where
  before hnone := absurd (List.mem_append_right j.deeds (List.mem_singleton_self _)) hnone
  after fresh earlier later hfresh hdeeds hlater := by
    obtain ⟨fresh', hfresh', halike⟩ := h.replayed
    obtain rfl := Except.ok.inj (hfresh'.symm.trans hfresh)
    rcases last_tick_of_concat hdeeds hlater with ⟨-, rfl⟩ | ⟨hother, -⟩
    · exact ht.trans (congrArg Report.status? halike.report_eq)
    · exact absurd rfl hother

/-- A clearing stands in the journal behind the tick, and has nothing to say about it. -/
theorem Told.cleared (h : Told s j) (ht : t.status = s.status) :
    Told t (Engine.clearTraces j) where
  before hnone := ht.trans (h.before fun hmem => hnone (List.mem_append_left _ hmem))
  after fresh earlier later hfresh hdeeds hlater := by
    rcases last_tick_of_concat hdeeds hlater with ⟨hother, -⟩ | ⟨-, between, hbetween, hnone⟩
    · cases hother
    · exact ht.trans (h.after fresh earlier between hfresh hbetween hnone)

theorem told_rebuild (hengine : (s.rebuild (journaled flowFactory)).2.engine = some j) :
    Told (s.rebuild (journaled flowFactory)).2 j := by
  generalize hresult : s.rebuild (journaled flowFactory) = result at hengine ⊢
  have hrebuilt := rebuild_cases (journaled flowFactory) s
  rw [hresult] at hrebuilt
  cases hrebuilt with
  | refused | failed => cases hengine
  | built hcheck hmade =>
    obtain rfl := Option.some.inj hengine
    obtain ⟨flow, -, rfl⟩ := eq_of_made hmade
    refine ⟨fun _ => rfl, fun fresh earlier later _ hdeeds => ?_⟩
    -- No tick stands in an empty journal.
    cases (List.append_eq_nil_iff.mp hdeeds.symm).2

theorem told_reconfigure (h : ∀ j, s.engine = some j → Told s j) (config : Config)
    (hengine : (s.reconfigure (journaled flowFactory) config).2.engine = some j) :
    Told (s.reconfigure (journaled flowFactory) config).2 j := by
  generalize hresult : s.reconfigure (journaled flowFactory) config = result at hengine ⊢
  have hcases := reconfigure_cases (journaled flowFactory) s config
  rw [hresult] at hcases
  cases hcases with
  | refused => cases hengine
  | kept | unchanged | unsized => exact (h j hengine).congr rfl rfl rfl
  | resized hcheck hwanted hchange hpresent hresize =>
    obtain rfl := Option.some.inj hengine
    rw [resize_journaled hcheck] at hresize
    obtain rfl := Except.ok.inj hresize
    exact (h _ hpresent).congr rfl rfl rfl
  | restarted hcheck hwanted hchange =>
    rw [restart_eq] at hengine ⊢
    exact told_rebuild hengine

theorem told_kept :
    Kept (journaled flowFactory) fun s => ∀ j, s.engine = some j → Faithful s j ∧ Told s j where
  start {s} h j hengine := by
    refine ⟨faithful_kept.start (fun j hj => (h j hj).1) j hengine, ?_⟩
    cases hrunning : s.isRunning with
    | true =>
      rw [start_of_running hrunning] at hengine ⊢
      exact (h j hengine).2.congr rfl rfl rfl
    | false =>
      rw [start_of_not_running hrunning] at hengine ⊢
      exact told_rebuild hengine
  stop _ j hengine := by cases hengine
  cancel h j hengine :=
    ⟨faithful_kept.cancel (fun j hj => (h j hj).1) j hengine, (h j hengine).2.congr rfl rfl rfl⟩
  reconfigure config h j hengine :=
    ⟨faithful_kept.reconfigure config (fun j hj => (h j hj).1) j hengine,
      told_reconfigure (fun j hj => (h j hj).2) config hengine⟩
  clearTraces {s} h j hengine := by
    refine ⟨faithful_kept.clearTraces (fun j hj => (h j hj).1) j hengine, ?_⟩
    obtain ⟨before, hbefore, rfl⟩ := Option.map_eq_some_iff.mp hengine
    exact (h before hbefore).2.cleared rfl
  tick {_} draw {s} r h j hengine := by
    refine ⟨faithful_kept.tick draw r (fun j hj => (h j hj).1) j hengine, ?_⟩
    cases hrunning : s.isRunning with
    | false =>
      rw [tick_of_not_running hrunning] at hengine ⊢
      have hheed := heed_eq_self hengine
      dsimp only at hengine ⊢
      rw [hheed] at hengine ⊢
      exact (h j hengine).2
    | true =>
      obtain ⟨⟨before, hbefore⟩, hcancelled⟩ := isRunning_iff.mp hrunning
      rw [tick_of_running hbefore hcancelled] at hengine ⊢
      obtain rfl := Option.some.inj hengine
      exact .stepped (h before hbefore).1 rfl

end Flows

/-! ## What leaves the line alone -/

section Keeping

variable {s : Simulation Flow Unit} {flow : Flow} {next : Config}

/-- A configuration that asks for nothing is kept, and that is all. -/
theorem reconfigure_of_unchanged (hs : Consistent flowFactory s) (hflow : s.engine = some flow)
    (hchange : s.config.changeTo next = .unchanged) :
    s.reconfigure flowFactory next = (.ok .unchanged, { s with config := next }) := by
  obtain ⟨hwanted, hcheck, -⟩ := hs.present hflow
  obtain ⟨hwidth, hheight⟩ := Config.size_eq_of_unchanged hchange
  have hcanvas : IsCanvas next.width next.height := by
    rw [← hwidth, ← hheight]
    exact (Config.check_eq_ok.mp hcheck).2.1
  have hnext := Config.check_of_changeTo (by rw [hchange]; nofun) hcheck hcanvas
  unfold reconfigure
  simp only [hnext, hwanted, hchange, hflow, Bool.not_true, Bool.false_eq_true, if_false]

/-- One that asks for another canvas gives the flow another scene, and that is all. -/
theorem reconfigure_of_resize (hs : Consistent flowFactory s) (hflow : s.engine = some flow)
    (hchange : s.config.changeTo next = .resize) (hcanvas : IsCanvas next.width next.height) :
    s.reconfigure flowFactory next =
      (.ok .resize,
        { s with config := next, engine := some (flow.refresh next.width next.height) }) := by
  obtain ⟨hwanted, hcheck, -⟩ := hs.present hflow
  have hnext := Config.check_of_changeTo (by rw [hchange]; nofun) hcheck hcanvas
  have hresize : Engine.resize flow next.width next.height =
      .ok (flow.refresh next.width next.height) :=
    Flow.resize_eq (Config.checkDimensions_of_check hnext) flow
  unfold reconfigure
  simp only [hnext, hwanted, hchange, hflow, hresize, Bool.not_true, Bool.false_eq_true, if_false]

/-- One whose canvas cannot be leaves no flow, and no line of one. -/
theorem reconfigure_of_not_canvas (hcanvas : ¬IsCanvas next.width next.height) :
    (s.reconfigure flowFactory next).2.engine = none := by
  have hcases := reconfigure_cases flowFactory s next
  generalize s.reconfigure flowFactory next = result at hcases ⊢
  have hrefused : next.check ≠ .ok () := fun hcheck => hcanvas (Config.check_eq_ok.mp hcheck).2.1
  cases hcases with
  | refused => rfl
  | kept hcheck | unchanged hcheck | resized hcheck | unsized hcheck | restarted hcheck =>
    exact absurd hcheck hrefused

end Keeping

/-! ## Flows -/

theorem field_of_replay {c : Config} {fresh : Flow} (hfresh : Flow.ofConfig c = .ok fresh)
    (deeds : List Deed) : (replay fresh deeds).field = .ofTexts c.dx c.dy c.a c.b := by
  induction deeds using List.reverseRecOn with
  | nil =>
    obtain ⟨params, -, -, rfl⟩ := Flow.eq_of_ofConfig hfresh
    rfl
  | append_singleton deeds deed ih =>
    rw [replay_append, ← ih]
    cases deed <;> rfl

/-- **The line of status tells about the last tick.** Whatever a loop of flows went through, if it
holds a flow then its line is that of the last tick of this flow, whose field is that of the
configuration it was built for: there is none before the first tick, and after a tick it tells about
the particles as that tick found them. A point has a finite velocity or an equation that failed: the
first one, if it has no value there, and the second one only if the first has a value. Another
canvas, a configuration that asks for nothing, a clearing of the traces and a raised flag leave the
line as it is; a canvas that cannot be leaves no flow to tell about. -/
theorem status_tells_last_tick (config : Config) (ops : List (Operation ρ)) (r : ρ) :
    let s := reached flowFactory config () ops r
    let remembering := reached (journaled flowFactory) config () ops r
    s = remembering.map Journaled.engine id ∧
    ∀ flow, s.engine = some flow → ∃ j fresh, remembering.engine = some j ∧ j.engine = flow ∧
      j.built.bare = s.config.bare ∧ Flow.ofConfig j.built = .ok fresh ∧
      flow.Alike (replay fresh j.deeds) ∧ j.deeds.count .stepped = s.ticks ∧
      flow.field = .ofTexts j.built.dx j.built.dy j.built.a j.built.b ∧
      (s.ticks = 0 → s.status = none) ∧
      (0 < s.ticks → ∃ earlier later, j.deeds = earlier ++ .stepped :: later ∧ .stepped ∉ later ∧
        flow.field.Tells (replay fresh earlier).population.particles s.status) ∧
      (∀ point v, flow.field.velocityAt point = .ok v → v.isFinite = true) ∧
      (∀ point cause, flow.field.velocityAt point = .error cause ↔
        (∃ e, flow.field.dx.eval (flow.field.bindingsAt point) = .error e ∧
          cause = .expression .dx flow.field.dx.source e) ∨
        (∃ vx e, flow.field.dx.eval (flow.field.bindingsAt point) = .ok vx ∧
          flow.field.dy.eval (flow.field.bindingsAt point) = .error e ∧
          cause = .expression .dy flow.field.dy.source e)) ∧
      (∀ next, s.config.changeTo next = .resize → IsCanvas next.width next.height →
        (s.reconfigure flowFactory next).1 = .ok .resize ∧
          (s.reconfigure flowFactory next).2.status = s.status) ∧
      (∀ next, ¬IsCanvas next.width next.height →
        (s.reconfigure flowFactory next).2.engine = none) ∧
      (∀ next, s.config.changeTo next = .unchanged →
        (s.reconfigure flowFactory next).1 = .ok .unchanged ∧
          (s.reconfigure flowFactory next).2.status = s.status) ∧
      s.clearTraces.status = s.status ∧ s.cancel.status = s.status := by
  intro s remembering
  have hmap : s = remembering.map Journaled.engine id :=
    (journaled_projects flowFactory).reached config () ops r
  have hs : Consistent flowFactory s := consistent_reached flow_resizable config () ops r
  refine ⟨hmap, fun flow hflow => ?_⟩
  have hticks : s.ticks = remembering.ticks := by rw [hmap]; rfl
  have hstatus : s.status = remembering.status := by rw [hmap]; rfl
  obtain ⟨j, hj, hengine⟩ : ∃ j, remembering.engine = some j ∧ j.engine = flow := by
    rw [hmap] at hflow
    exact Option.map_eq_some_iff.mp hflow
  have hidle : ∀ j, (idle config () : Simulation (Journaled Flow) Unit).engine = some j →
      Faithful (idle config ()) j ∧ Told (idle config ()) j := fun j hj => by cases hj
  obtain ⟨hfaithful, htold⟩ : Faithful remembering j ∧ Told remembering j :=
    told_kept.performAll ops r hidle j hj
  obtain ⟨fresh, hfresh, halike⟩ := hfaithful.replayed
  have hcount : j.deeds.count .stepped = s.ticks := hfaithful.counted.trans hticks.symm
  rw [hengine] at halike
  refine ⟨j, fresh, hj, hengine, ?_, hfresh, halike, hcount,
    halike.field.trans (field_of_replay hfresh _), fun hzero => ?_, fun hpos => ?_,
    fun _ _ => VectorField.isFinite_of_velocityAt, fun _ _ => VectorField.velocityAt_eq_error,
    fun next hchange hcanvas => ?_, fun next => reconfigure_of_not_canvas, fun next hchange => ?_,
    rfl, rfl⟩
  · rw [hmap]
    exact hfaithful.agrees
  · exact hstatus.trans (htold.before (List.count_eq_zero.mp (hcount.trans hzero)))
  · obtain ⟨earlier, later, hdeeds, hlater⟩ :=
      exists_last_tick (List.count_pos_iff.mp (hcount.symm ▸ hpos))
    refine ⟨earlier, later, hdeeds, hlater, ?_⟩
    -- Ticks and clearings do not change the field.
    rw [hstatus, htold.after fresh earlier later hfresh hdeeds hlater, halike.field,
      field_of_replay hfresh, ← field_of_replay hfresh earlier]
    exact Population.tells_step _ _
  · rw [reconfigure_of_resize hs hflow hchange hcanvas]
    exact ⟨rfl, rfl⟩
  · rw [reconfigure_of_unchanged hs hflow hchange]
    exact ⟨rfl, rfl⟩

/-- The one particle of a loop has no velocity, as the first equation is blank; the renderer raises
the flag, and the line stays. -/
example : (reached flowFactory
    { Config.default with dx := ";", params := .ofMembers [("particle_count", .natural 1)] } ()
    [Operation.start, .tick fun _ r => (true, r), .clearTraces] ()).status =
      some ("no valid particles, check your equations: " ++
        "invalid expression for dx/dt: \"\" (empty expression)") := by
  decide +kernel

end PhasePortrait.Simulation
