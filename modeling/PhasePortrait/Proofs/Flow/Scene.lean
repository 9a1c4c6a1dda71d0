import PhasePortrait.Proofs.Flow
import PhasePortrait.Proofs.Particle.Tally

/-!
# Scenes are up to date

A scene is kept beside the particles it shows, and there are three things that could leave it behind
them: a tick moves particles, a clearing empties traces, a resize moves the picture under both. Each
of them makes the scene anew from all it depends on, so **the scene is a function of the particles
and of the size of the canvas** (`Showing`), after whatever went before.

A resize changes nothing but the scene. So it may change places with a tick or with a clearing, only
the last one of several counts, and a run without its resizes has the same particles and reports
(`Alike.performAll`).
-/

namespace PhasePortrait.Flow

/-! ## Runs -/

/-- What can be done with a flow. -/
inductive Operation where
  | step
  | resize (width height : Nat)
  | clearTraces
deriving DecidableEq

/-- One operation. A size that is refused changes nothing. -/
def perform (f : Flow) : Operation → Flow
  | .step => f.step.2
  | .resize width height =>
    match f.resize width height with
    | .ok resized => resized
    | .error _ => f
  | .clearTraces => f.clearTraces

/-- A run: operations one after another. -/
def performAll (f : Flow) (ops : List Operation) : Flow := ops.foldl perform f

/-- What the ticks of a run report. -/
def reports (f : Flow) : List Operation → List Report
  | [] => []
  | .step :: ops => f.step.1 :: reports f.step.2 ops
  | op :: ops => reports (f.perform op) ops

/-- The size of the canvas after an operation. -/
def Operation.sizeAfter (size : Nat × Nat) : Operation → Nat × Nat
  | .resize width height => if IsCanvas width height then (width, height) else size
  | .step | .clearTraces => size

/-- Whether an operation makes the scene anew. -/
def Operation.shows : Operation → Bool
  | .resize width height => decide (IsCanvas width height)
  | .step | .clearTraces => true

/-- Whether an operation asks for another canvas. These are the ones that may be left out of a
run. -/
def Operation.isResize : Operation → Bool
  | .resize _ _ => true
  | .step | .clearTraces => false

/-- A size is accepted exactly if it is one of a canvas, and then only the scene is made anew. -/
theorem resize_eq_ite (f : Flow) (width height : Nat) :
    f.resize width height =
      if IsCanvas width height then .ok (f.refresh width height)
      else .error (.invalidDimensions width height) := by
  unfold resize
  rw [checkDimensions_eq]
  split <;> rfl

theorem perform_resize (f : Flow) (width height : Nat) :
    f.perform (.resize width height) =
      if IsCanvas width height then f.refresh width height else f := by
  unfold perform
  dsimp only
  rw [resize_eq_ite]
  by_cases hcanvas : IsCanvas width height
  · rw [if_pos hcanvas, if_pos hcanvas]
  · rw [if_neg hcanvas, if_neg hcanvas]

theorem performAll_append (f : Flow) (earlier later : List Operation) :
    f.performAll (earlier ++ later) = (f.performAll earlier).performAll later :=
  List.foldl_append

/-! ## Changing places -/

/-- A scene that is made anew forgets the one before, so it may be made before a tick or after. -/
theorem step_refresh (f : Flow) (width height : Nat) :
    (f.refresh width height).step = (f.step.1, f.step.2.refresh width height) := rfl

/-- Clearing makes the scene anew as well, so it does not matter whether the picture was moved
before or is moved after. -/
theorem clearTraces_refresh (f : Flow) (width height : Nat) :
    (f.refresh width height).clearTraces = f.clearTraces.refresh width height := rfl

theorem refresh_refresh (f : Flow) (width height width' height' : Nat) :
    (f.refresh width height).refresh width' height' = f.refresh width' height' := rfl

/-! ## What a scene shows -/

/-- What a flow of a configuration shows, on a canvas of some size. Before anything is done its scene
need not be that of its particles. -/
structure Showing (c : Config) (size : Nat × Nat) (shown : Bool) (f : Flow) : Prop where
  colors : f.colors = c.scheme.color
  bounds : f.population.bounds = c.bounds
  width : f.scene.width = size.1
  height : f.scene.height = size.2
  background : f.scene.background = c.background
  scene : shown = true →
    f.scene = view f.population c.scheme.color size.1 size.2 c.background

section Showing

variable {c : Config} {size : Nat × Nat} {shown : Bool} {f : Flow}

/-- A flow that was just built has the size and the background of its configuration. Nothing has
been shown. -/
theorem showing_of_ofConfig (h : ofConfig c = .ok f) : Showing c (c.width, c.height) false f := by
  obtain ⟨params, -, -, rfl⟩ := eq_of_ofConfig h
  refine
    { colors := rfl
      bounds := ?_
      width := rfl
      height := rfl
      background := rfl
      scene := nofun }
  dsimp only
  split <;> rfl

/-- Every operation that shows anything ends like this: a scene made anew of the particles it has,
for the size that it leaves. -/
theorem Showing.refresh (h : Showing c size shown f) (population : Population Float)
    (hbounds : population.bounds = f.population.bounds) (width height : Nat) :
    Showing c (width, height) true ({ f with population }.refresh width height) where
  colors := h.colors
  bounds := hbounds.trans h.bounds
  width := rfl
  height := rfl
  background := h.background
  scene _ := by
    rw [← h.colors, ← h.background]
    rfl

/-- One operation keeps what the flow shows, on the canvas that the operation leaves, and begins to
show something if it makes the scene anew. -/
theorem Showing.perform (h : Showing c size shown f) (op : Operation) :
    Showing c (op.sizeAfter size) (shown || op.shows) (f.perform op) := by
  have hsize : size = (f.scene.width, f.scene.height) := by rw [h.width, h.height]
  cases op with
  | step =>
    rw [Operation.shows, Bool.or_true, Operation.sizeAfter, hsize]
    exact h.refresh (f.population.step f.field.velocityAt).2 rfl _ _
  | clearTraces =>
    rw [Operation.shows, Bool.or_true, Operation.sizeAfter, hsize]
    exact h.refresh f.population.clearTraces rfl _ _
  | resize width height =>
    rw [perform_resize, Operation.sizeAfter, Operation.shows]
    by_cases hcanvas : IsCanvas width height
    · rw [if_pos hcanvas, if_pos hcanvas, decide_eq_true hcanvas, Bool.or_true]
      exact h.refresh f.population rfl _ _
    · rw [if_neg hcanvas, if_neg hcanvas, decide_eq_false hcanvas, Bool.or_false]
      exact h

theorem Showing.performAll (h : Showing c size shown f) (ops : List Operation) :
    Showing c (ops.foldl Operation.sizeAfter size) (shown || ops.any Operation.shows)
      (f.performAll ops) := by
  induction ops generalizing f size shown with
  | nil =>
    rw [List.any_nil, Bool.or_false]
    exact h
  | cons op ops ih =>
    rw [List.any_cons, ← Bool.or_assoc]
    exact ih (h.perform op)

/-- What shows nothing does nothing. -/
theorem perform_eq_self {op : Operation} (h : op.shows = false) (f : Flow) : f.perform op = f := by
  cases op with
  | step | clearTraces => cases h
  | resize width height => rw [perform_resize, if_neg (of_decide_eq_false h)]

/-- A run that shows nothing does nothing, so the scene is still that of the start. -/
theorem performAll_eq_self {ops : List Operation} (h : ops.any Operation.shows = false)
    (f : Flow) : f.performAll ops = f := by
  induction ops with
  | nil => rfl
  | cons op ops ih =>
    rw [List.any_cons, Bool.or_eq_false_iff] at h
    show (f.perform op).performAll ops = f
    rw [perform_eq_self h.1, ih h.2]

end Showing

/-! ## What a resize leaves alone -/

variable {f g : Flow}

/-- A report is made of the particles and of the field, and flows that differ in their scenes share
both. -/
theorem Alike.report_eq (h : Alike f g) : f.step.1 = g.step.1 := by
  show (f.population.step f.field.velocityAt).1 = (g.population.step g.field.velocityAt).1
  rw [h.field, h.population]

/-- A resize keeps a flow alike to what it was alike to, accepted or not. -/
theorem Alike.perform_resize (h : Alike f g) (width height : Nat) :
    Alike (f.perform (.resize width height)) g := by
  rw [Flow.perform_resize]
  split
  · exact h.refresh width height
  · exact h

/-- **A run without its resizes** has the same reports, and ends with the same particles. Both runs
are followed at once, and a resize makes a step in one of them only. -/
theorem Alike.performAll (h : Alike f g) (ops : List Operation) :
    f.reports ops = g.reports (ops.filter fun op => !op.isResize) ∧
      Alike (f.performAll ops) (g.performAll (ops.filter fun op => !op.isResize)) := by
  induction ops generalizing f g with
  | nil => exact ⟨rfl, h⟩
  | cons op ops ih =>
    cases op with
    | step =>
      obtain ⟨hreports, hlast⟩ := ih h.step
      exact ⟨List.cons_eq_cons.mpr ⟨h.report_eq, hreports⟩, hlast⟩
    | clearTraces => exact ih h.clearTraces
    | resize width height => exact ih (h.perform_resize width height)

/-! ## What a tick leaves to be shown -/

theorem population_of_resize (f : Flow) (width height : Nat) :
    (f.perform (.resize width height)).population = f.population := by
  rw [perform_resize]
  split <;> rfl

/-- The tick of the particles counts the ticks of the run and nothing else. Another canvas and a
clearing of traces are no ticks, also where they are refused. -/
theorem tick_performAll (f : Flow) (ops : List Operation) :
    (f.performAll ops).population.tick = f.population.tick + ops.count .step := by
  induction ops generalizing f with
  | nil => rfl
  | cons op ops ih =>
    show ((f.perform op).performAll ops).population.tick = _
    rw [ih]
    cases op with
    | step =>
      show f.population.tick + 1 + _ = _
      rw [List.count_cons_self]
      omega
    | clearTraces =>
      show f.population.tick + _ = _
      simp only [List.count_cons_of_ne, ne_eq, reduceCtorEq, not_false_eq_true]
    | resize width height =>
      rw [population_of_resize]
      simp only [List.count_cons_of_ne, ne_eq, reduceCtorEq, not_false_eq_true]

/-- Nothing is shown of live particles before the first tick. -/
theorem samples_of_ofConfig {c : Config} (h : ofConfig c = .ok f) : f.population.samples = [] := by
  obtain ⟨params, -, -, rfl⟩ := eq_of_ofConfig h
  dsimp only
  split <;> rfl

/-- Until the next tick, what is shown of live particles stays as it is. So a clearing of traces
changes the scene in its traces alone. -/
theorem samples_performAll (f : Flow) {ops : List Operation} (h : Operation.step ∉ ops) :
    (f.performAll ops).population.samples = f.population.samples := by
  induction ops generalizing f with
  | nil => rfl
  | cons op ops ih =>
    obtain ⟨hop, hlater⟩ := not_or.mp (mt List.mem_cons.mpr h)
    show ((f.perform op).performAll ops).population.samples = _
    rw [ih (f.perform op) hlater]
    cases op with
    | step => exact absurd rfl hop
    | clearTraces => rfl
    | resize width height => rw [population_of_resize]

/-- What is shown after a run was computed by its last tick, from the particles that this tick
found. -/
theorem samples_last_step (f : Flow) {earlier later : List Operation}
    (h : Operation.step ∉ later) :
    (f.performAll (earlier ++ .step :: later)).population.samples =
      (f.performAll earlier).population.particles.filterMap
        ((f.performAll earlier).population.shown? (f.performAll earlier).field.velocityAt) := by
  rw [performAll_append]
  show ((f.performAll earlier).step.2.performAll later).population.samples = _
  rw [samples_performAll _ h]
  exact Population.samples_step _ _

/-- **A scene is the present picture of the particles.** Whatever is done with a flow of a
configuration, once anything was shown its scene has the size of the last resize that was accepted,
the background of the configuration and the tick of the particles; a sprite for each sample of the
last tick, in order, coloured as the scheme says; and a line for each traced particle, through its
history. All places are those of the canvas. A resize that is refused changes nothing, and an
accepted one nothing but the scene: it changes places with ticks and clearings, only the last one
counts, and without it the particles and the reports are the same. -/
theorem scene_is_current {c : Config} {fresh : Flow} (hfresh : ofConfig c = .ok fresh)
    (ops : List Operation) :
    let f := fresh.performAll ops
    let size := ops.foldl Operation.sizeAfter (c.width, c.height)
    (ops.any Operation.shows = true →
      f.scene = {
        width := size.1
        height := size.2
        tick := f.population.tick
        background := c.background
        sprites := f.population.samples.map fun s => {
          position := c.bounds.toPixel s.position size.1 size.2
          alpha := s.alpha
          color := c.scheme.color s.velocity.angle s.alpha s.velocity.magnitude }
        traces := f.population.traced.map fun t =>
          t.history.map fun p => c.bounds.toPixel p size.1 size.2 }) ∧
    (ops.any Operation.shows = false → f = fresh) ∧
    f.population.tick = ops.count .step ∧
    (.step ∉ ops → f.population.samples = []) ∧
    (∀ earlier later, ops = earlier ++ .step :: later → .step ∉ later →
      let found := fresh.performAll earlier
      f.population.samples = found.population.particles.filterMap
        (found.population.shown? found.field.velocityAt)) ∧
    (∀ width height, ¬ IsCanvas width height →
      f.resize width height = .error (.invalidDimensions width height) ∧
        f.perform (.resize width height) = f) ∧
    (∀ width height, IsCanvas width height → ∃ resized, f.resize width height = .ok resized ∧
      resized.step.1 = f.step.1 ∧
      f.step.2.resize width height = .ok resized.step.2 ∧
      f.clearTraces.resize width height = .ok resized.clearTraces ∧
      (∀ width' height', resized.resize width' height' = f.resize width' height') ∧
      resized.Alike f) ∧
    fresh.reports ops = fresh.reports (ops.filter fun op => !op.isResize) ∧
    f.Alike (fresh.performAll (ops.filter fun op => !op.isResize)) := by
  intro f size
  have hshowing : Showing c size (ops.any Operation.shows) f := by
    simpa only [Bool.false_or] using (showing_of_ofConfig hfresh).performAll ops
  obtain ⟨hreports, halike⟩ := (Alike.refl fresh).performAll ops
  refine ⟨fun hshown => ?_, fun hshown => performAll_eq_self hshown fresh, ?_, fun hstep => ?_, ?_,
    ?_, ?_, hreports, halike⟩
  · rw [hshowing.scene hshown, view, hshowing.bounds]
    rfl
  · exact (tick_performAll fresh ops).trans (by rw [(fresh_of_ofConfig hfresh).2, Nat.zero_add])
  · exact (samples_performAll fresh hstep).trans (samples_of_ofConfig hfresh)
  · rintro earlier later hops hlater
    show (fresh.performAll ops).population.samples = _
    rw [hops]
    exact samples_last_step fresh hlater
  · intro width height hcanvas
    rw [resize_eq_ite, perform_resize, if_neg hcanvas, if_neg hcanvas]
    exact ⟨rfl, rfl⟩
  · intro width height hcanvas
    simp only [resize_eq_ite, if_pos hcanvas]
    refine ⟨f.refresh width height, rfl, ?_, ?_, ?_, fun width' height' => ?_,
      (Alike.refl f).refresh width height⟩
    · rw [step_refresh]
    · rw [step_refresh]
    · rw [clearTraces_refresh]
    · rw [refresh_refresh]

/-- The flow of the default configuration is seen on another canvas after one tick, and goes on being
seen there when a canvas without width is asked for. -/
theorem scene_of_default :
    ∃ fresh, ofConfig Config.default = .ok fresh ∧
      let f := fresh.performAll [.step, .resize 4 3, .resize 0 3, .clearTraces]
      f.scene.width = 4 ∧ f.scene.height = 3 ∧ f.scene.tick = 1 := by
  have hmade : (ofConfig Config.default).toOption.isSome = true := by decide +kernel
  cases hfresh : ofConfig Config.default with
  | error cause =>
    rw [hfresh] at hmade
    cases hmade
  | ok fresh =>
    obtain ⟨hscene, -, htick, -⟩ :=
      scene_is_current hfresh [.step, .resize 4 3, .resize 0 3, .clearTraces]
    refine ⟨fresh, rfl, ?_⟩
    dsimp only
    rw [hscene rfl, htick]
    exact ⟨rfl, rfl, rfl⟩

end PhasePortrait.Flow
