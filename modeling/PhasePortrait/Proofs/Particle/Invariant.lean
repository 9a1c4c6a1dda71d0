import PhasePortrait.Proofs.Generator
import PhasePortrait.Proofs.Particle.Run
import PhasePortrait.Proofs.Particle.Tally

/-!
# What populations have in common

A population that is made of valid bounds and parameters keeps its size, its parameters and valid
bounds, whatever is done with it; its generator never stops, and none of its particles fades in
later than it may. Each operation keeps all of this (`Population.Sound.perform`), so a run does.

**Traced particles follow the seeding and not the mode.** While traces are on there are as many
traced particles as the parameters say, because turning traces on seeds them. But they can be seeded
while traces are off as well, and then they stay until traces are turned off once more
(`Population.isSeeded`).
-/

namespace PhasePortrait.Population

variable {α : Type}

/-! ## Seeding -/

/-- Whether there are traced particles after an operation, given whether there were any before. -/
def Operation.seeds (before : Bool) : Operation α → Bool
  | .setTrace enabled => enabled
  | .reseedTraces => true
  | .step _ | .setBounds _ | .clearTraces => before

/-- Whether traced particles were seeded in a run and not removed since. -/
def isSeeded (ops : List (Operation α)) : Bool := ops.foldl Operation.seeds false

/-! ## The invariant -/

/-- What holds of a population whatever its traces are. -/
structure Populated [Scalar α] (params : Params α) (p : Population α) : Prop where
  params_eq : p.params = params
  length_eq : p.particles.length = params.particleCount
  fadeInAge : ∀ particle ∈ p.particles,
    particle.fadeInAge = 0 ∨ particle.fadeInAge < params.fadeIn
  isValid_bounds : p.bounds.isValid = true
  isLive_generator : p.generator.IsLive

/-- **The invariant.** The traces are on only where traced particles were seeded. -/
structure Sound [Scalar α] (params : Params α) (seeded : Bool) (p : Population α) : Prop
    extends Populated params p where
  length_traced : p.traced.length = if seeded then params.traceCount else 0
  seeded_of_trace : p.traceEnabled = true → seeded = true

variable [Scalar α] {params : Params α} {seeded : Bool} {p q : Population α}

/-- A population starts out with its particles, and with no traced ones: traces are off, and seeding
them is an operation of its own. -/
theorem sound_ofSeed {bounds : Bounds α} (hbounds : bounds.isValid = true) (seed : UInt64) :
    Sound params false (ofSeed bounds params seed) where
  params_eq := rfl
  length_eq := Draw.length_times _ _ _
  fadeInAge particle hparticle := by
    obtain ⟨g, rfl⟩ := Draw.exists_of_mem_times hparticle
    exact Particle.fadeInAge_reborn bounds params g
  isValid_bounds := hbounds
  isLive_generator :=
    (Draw.keeps_spawn Draw.word_keeps_isLive bounds params).times _ _ (Generator.isLive_ofSeed seed)
  length_traced := rfl
  seeded_of_trace := nofun

/-- Seeding makes as many traced particles as there are to be, whether traces are on or off. -/
theorem Populated.reseedTraces (h : Populated params p) : Sound params true p.reseedTraces where
  params_eq := h.params_eq
  length_eq := h.length_eq
  fadeInAge := h.fadeInAge
  isValid_bounds := h.isValid_bounds
  isLive_generator :=
    (Draw.keeps_randomPoint Draw.word_keeps_isLive p.bounds).times _ _ h.isLive_generator
  length_traced := by
    rw [← h.params_eq]
    exact (List.length_map _).trans (Draw.length_times _ _ _)
  seeded_of_trace _ := rfl

theorem Populated.setTrace (h : Populated params p) (enabled : Bool) :
    Sound params enabled (p.setTrace enabled) := by
  cases enabled with
  | true =>
    have hon : Populated params { p with traceEnabled := true } := { h with }
    exact hon.reseedTraces
  | false => exact { h with length_traced := rfl, seeded_of_trace := nofun }

theorem traceEnabled_setBounds {bounds : Bounds α} (hmoved : p.setBounds bounds = .ok q) :
    q.traceEnabled = p.traceEnabled := by
  obtain ⟨_, -, hmoved⟩ := bind_eq_ok.mp hmoved
  obtain rfl := Except.ok.inj hmoved
  dsimp only
  split <;> rfl

/-- Bounds that are accepted are valid, and traced particles are seeded anew only where there are
some. -/
theorem Sound.setBounds (h : Sound params seeded p) {bounds : Bounds α}
    (hmoved : p.setBounds bounds = .ok q) : Sound params seeded q := by
  obtain ⟨⟨⟩, hcheck, hmoved⟩ := bind_eq_ok.mp hmoved
  obtain rfl := Except.ok.inj hmoved
  have hvalid := Bounds.check_eq_ok.mp hcheck
  have hin : Sound params seeded { p with bounds } := { h with isValid_bounds := hvalid }
  dsimp only
  split
  next hon =>
    rw [h.seeded_of_trace hon]
    exact hin.toPopulated.reseedTraces
  next => exact hin

theorem Sound.clearTraces (h : Sound params seeded p) : Sound params seeded p.clearTraces :=
  { h with length_traced := (List.length_map _).trans h.length_traced }

variable [Elementary α]

theorem Populated.step (h : Populated params p) (field : Field α) :
    Populated params (p.step field).2 where
  params_eq := h.params_eq
  length_eq := (length_step p field).trans h.length_eq
  fadeInAge next hnext := by
    obtain ⟨i, hi⟩ := List.mem_iff_getElem?.mp hnext
    obtain ⟨particle, hparticle, hsettled⟩ := settled_of_step hi
    cases hsettled with
    | reborn hturn hexpires g =>
      rw [← h.params_eq]
      exact Particle.fadeInAge_reborn p.bounds p.params g
    | kept => exact h.fadeInAge particle (List.mem_of_getElem? hparticle)
  isValid_bounds := h.isValid_bounds
  isLive_generator :=
    Draw.Keeps.mapM (fun (m : Advanced α × Nat) =>
      Draw.keeps_settle Draw.word_keeps_isLive p m.2 m.1) _ _ h.isLive_generator

theorem Sound.step (h : Sound params seeded p) (field : Field α) :
    Sound params seeded (p.step field).2 where
  toPopulated := h.toPopulated.step field
  length_traced := by
    rw [← h.length_traced]
    change (if p.traceEnabled then p.traced.map _ else p.traced).length = _
    split
    · exact List.length_map _
    · rfl
  seeded_of_trace := h.seeded_of_trace

/-- **Every operation keeps the invariant.** What the invariant says of traced particles depends on
whether they were seeded, and each operation says whether it seeds. -/
theorem Sound.perform (h : Sound params seeded p) (op : Operation α) :
    Sound params (op.seeds seeded) (p.perform op) := by
  cases op with
  | step field => exact h.step field
  | setTrace enabled => exact h.toPopulated.setTrace enabled
  | setBounds bounds =>
    dsimp only [Population.perform, Operation.seeds]
    split
    next hmoved => exact h.setBounds hmoved
    next => exact h
  | reseedTraces => exact h.toPopulated.reseedTraces
  | clearTraces => exact h.clearTraces

theorem Sound.performAll (h : Sound params seeded p) (ops : List (Operation α)) :
    Sound params (ops.foldl Operation.seeds seeded) (p.performAll ops) := by
  induction ops generalizing p seeded with
  | nil => exact h
  | cons op ops ih => exact ih (h.perform op)

/-- Where traced particles are seeded by the mode alone, they are there while it is on. The one
operation that seeds them without asking for the mode is left out. -/
theorem seeds_eq_traceEnabled (p : Population α) {ops : List (Operation α)}
    (hnone : ∀ op ∈ ops, op ≠ .reseedTraces) :
    ops.foldl Operation.seeds p.traceEnabled = (p.performAll ops).traceEnabled := by
  induction ops generalizing p with
  | nil => rfl
  | cons op ops ih =>
    obtain ⟨hop, hnone⟩ := List.forall_mem_cons.mp hnone
    have hnext : op.seeds p.traceEnabled = (p.perform op).traceEnabled := by
      cases op with
      | step | clearTraces => rfl
      | setTrace enabled => cases enabled <;> rfl
      | setBounds bounds =>
        dsimp only [Population.perform, Operation.seeds]
        split
        next hmoved => exact (traceEnabled_setBounds hmoved).symm
        next => rfl
      | reseedTraces => exact absurd rfl hop
    rw [List.foldl_cons, hnext]
    exact ih (p.perform op) hnone

/-! ## Reached populations -/

/-- **What holds of every population that is reached**, and what a tick of it tells and shows. A
population is made of any valid bounds and parameters; the fields of its ticks may be any, and may
fail. Afterwards it has its particles, valid bounds and a generator that goes on, it has counted its
ticks, and no particle fades in later than it may. There are the traced particles of the parameters
while traces are on, and while they are off none, unless they were seeded since.

A tick counts every particle once, tells the reason of the first particle that the field refuses,
and shows, in order, those that it gives a finite velocity, where they are moved to. Bounds that are
refused change nothing. -/
theorem reached_is_sound {bounds : Bounds α} (hbounds : bounds.isValid = true)
    (hparams : params.check = .ok ()) (seed : UInt64) :
    ∃ start, make bounds params seed = .ok start ∧ ∀ ops : List (Operation α),
      let p := start.performAll ops
      p.particles.length = params.particleCount ∧
      p.traced.length = (if p.traceEnabled || isSeeded ops then params.traceCount else 0) ∧
      ((∀ op ∈ ops, op ≠ .reseedTraces) → isSeeded ops = p.traceEnabled) ∧
      p.bounds.isValid = true ∧
      p.generator.state ≠ 0 ∧
      p.tick = (start.steps ops).length ∧
      (∀ particle ∈ p.particles,
        particle.fadeInAge = 0 ∨ particle.fadeInAge < params.fadeIn) ∧
      (∀ field report next, p.step field = (report, next) →
        report.successes + report.failures = params.particleCount ∧
        (∀ cause, report.firstError = some cause ↔
          ∃ before particle after, p.particles = before ++ particle :: after ∧
            field particle.position = .error cause ∧
            ∀ other ∈ before, ∃ v, field other.position = .ok v) ∧
        next.samples = p.particles.filterMap (p.shown? field)) ∧
      (∀ moved cause, p.setBounds moved = .error cause → p.perform (.setBounds moved) = p) := by
  refine ⟨_, make_eq_ok hbounds hparams seed, fun ops => ?_⟩
  intro p
  have hp : Sound params (isSeeded ops) p := (sound_ofSeed hbounds seed).performAll ops
  refine ⟨hp.length_eq, ?_, seeds_eq_traceEnabled (ofSeed bounds params seed), hp.isValid_bounds,
    hp.isLive_generator, ?_, hp.fadeInAge, ?_, ?_⟩
  · rw [hp.length_traced]
    cases hon : p.traceEnabled with
    | true => rw [hp.seeded_of_trace hon, Bool.or_self]
    | false => rw [Bool.false_or]
  · exact (tick_performAll _ ops).trans (Nat.zero_add _)
  · rintro field _ _ ⟨⟩
    exact ⟨(total_step p field).trans hp.length_eq, firstError_step p field, samples_step p field⟩
  · intro moved cause hrefused
    simp only [Population.perform, hrefused]

/-- Three live particles, and two traced ones. -/
def fewTraced : Params Float := { Params.default with particleCount := 3, traceCount := 2 }

/-- Two particles are traced after the traces of three particles are turned on, and a tick in which
the field refuses them all. -/
theorem reached_of_fewTraced :
    (Bounds.default : Bounds Float).isValid = true ∧ fewTraced.check = .ok () ∧
      ∃ start, make Bounds.default fewTraced 7 = .ok start ∧
        (start.performAll [.setTrace true, .step fun _ => .error .noParticle]).traced.length = 2 := by
  have hbounds : (Bounds.default : Bounds Float).isValid = true := by decide +kernel
  have hparams : fewTraced.check = .ok () := rfl
  obtain ⟨start, hmade, hreached⟩ := reached_is_sound hbounds hparams 7
  obtain ⟨-, htraced, -⟩ := hreached [.setTrace true, .step fun _ => .error .noParticle]
  refine ⟨hbounds, hparams, start, hmade, ?_⟩
  rw [htraced, show isSeeded _ = true from rfl, Bool.or_true]
  rfl

/-- Traced particles that are seeded while traces are off are there all the same. -/
theorem traced_while_off :
    ∃ start : Population Float, make Bounds.default fewTraced 7 = .ok start ∧
      (start.performAll [.reseedTraces]).traceEnabled = false ∧
      (start.performAll [.reseedTraces]).traced.length = 2 := by
  have hbounds : (Bounds.default : Bounds Float).isValid = true := by decide +kernel
  have hparams : fewTraced.check = .ok () := rfl
  have hstart : Sound fewTraced false (ofSeed Bounds.default fewTraced 7) :=
    sound_ofSeed hbounds 7
  exact ⟨_, make_eq_ok hbounds hparams 7, rfl, (hstart.performAll [.reseedTraces]).length_traced⟩

end PhasePortrait.Population
