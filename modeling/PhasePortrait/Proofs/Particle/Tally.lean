import PhasePortrait.Particle.Population

/-!
# What a tick tells and shows

The report of a tick and its samples are made from the answers that the field gives the particles
where they are when the tick begins, in the order of the particles. Every particle is counted once;
the first reason is that of the first particle with a reason, since later ones are dropped; and a
particle that has a velocity is shown where the velocity takes it, also when it is reborn in the
same tick.
-/

namespace PhasePortrait

variable {α : Type}

/-! ## Reports -/

/-- The reason of an answer. -/
def Answer.cause? : Answer α → Option FieldError
  | failed cause => some cause
  | _ => none

namespace Report

theorem total_record (r : Report) (answer : Answer α) :
    (r.record answer).successes + (r.record answer).failures = r.successes + r.failures + 1 := by
  cases answer <;> simp only [record, succeed, miss, fail] <;> omega

/-- A reason is kept only where there was none before. -/
theorem firstError_record (r : Report) (answer : Answer α) :
    (r.record answer).firstError = r.firstError.or answer.cause? := by
  cases answer <;> simp [record, succeed, miss, fail, Answer.cause?]

variable {β : Type} (answer : β → Answer α)

/-- Every item is counted once. -/
theorem total_foldl (items : List β) (r : Report) :
    let told := items.foldl (fun r item => r.record (answer item)) r
    told.successes + told.failures = r.successes + r.failures + items.length := by
  induction items generalizing r with
  | nil => rfl
  | cons item items ih =>
    dsimp only at ih ⊢
    rw [List.foldl_cons, ih, total_record, List.length_cons]
    omega

/-- The first reason is kept. -/
theorem firstError_foldl (items : List β) (r : Report) :
    (items.foldl (fun r item => r.record (answer item)) r).firstError =
      r.firstError.or (items.findSome? fun item => (answer item).cause?) := by
  induction items generalizing r with
  | nil => simp
  | cons item items ih =>
    rw [List.foldl_cons, ih, firstError_record, Option.or_assoc, List.findSome?_cons]
    cases (answer item).cause? <;> simp

/-- The velocities are counted. -/
theorem successes_foldl (items : List β) (r : Report) :
    (items.foldl (fun r item => r.record (answer item)) r).successes =
      r.successes + items.countP fun item => (answer item).velocity?.isSome := by
  induction items generalizing r with
  | nil => rfl
  | cons item items ih =>
    rw [List.foldl_cons, ih, List.countP_cons]
    cases answer item <;> simp [record, succeed, miss, fail, Answer.velocity?]
    omega

/-- The line that tells about a tick with a reason. -/
theorem status?_of_some {r : Report} {cause : FieldError} (h : r.firstError = some cause) :
    r.status? = some (if r.isInvalid = true then
      FieldError.noParticle.message ++ ": " ++ cause.message else cause.message) := by
  unfold status?
  cases r.isInvalid <;> simp [h]

/-- Without a reason, there is a line only for a tick in which no particle got a velocity. -/
theorem status?_of_none {r : Report} (h : r.firstError = none) :
    r.status? = if r.isInvalid = true then some FieldError.noParticle.message else none := by
  unfold status?
  cases r.isInvalid <;> simp [h]

/-- An invalid tick has something to tell, also where no reason was given. -/
theorem exists_status?_of_isInvalid {r : Report} (h : r.isInvalid = true) :
    ∃ message, r.status? = some message := by
  cases hfirst : r.firstError with
  | some cause => exact ⟨_, status?_of_some hfirst⟩
  | none =>
    rw [status?_of_none hfirst, if_pos h]
    exact ⟨_, rfl⟩

end Report

variable [Scalar α]

/-- An answer has a velocity if the field gives one that is finite. -/
theorem Answer.velocity?_ask_isSome {field : Field α} {p : Point α} :
    (ask field p).velocity?.isSome = true ↔ ∃ v, field p = .ok v ∧ v.isFinite = true := by
  unfold ask
  cases field p with
  | error cause => simp [velocity?]
  | ok v => cases hfinite : v.isFinite <;> simp [velocity?, hfinite]

/-- An answer has a reason if the field has failed. A velocity that is not finite comes without
one. -/
theorem Answer.cause?_ask_eq_some {field : Field α} {p : Point α} {cause : FieldError} :
    (ask field p).cause? = some cause ↔ field p = .error cause := by
  unfold ask
  cases field p with
  | error other => simp [cause?]
  | ok v => dsimp only; split <;> simp [cause?]

theorem Answer.cause?_ask_eq_none {field : Field α} {p : Point α} :
    (ask field p).cause? = none ↔ ∃ v, field p = .ok v := by
  unfold ask
  cases field p with
  | error other => simp [cause?]
  | ok v => dsimp only; split <;> simp [cause?]

/-- A field moves what is at a point: it has a finite velocity there. -/
def Moves (field : Field α) (point : Point α) : Prop :=
  ∃ v, field point = .ok v ∧ v.isFinite = true

theorem exists_ok_of_moves {field : Field α} {point : Point α} (h : Moves field point) :
    ∃ v, field point = .ok v := by
  obtain ⟨v, hv, -⟩ := h
  exact ⟨v, hv⟩

/-- What is moved is moved by the displacement of its velocity, and by nothing else. -/
theorem Answer.moved_ask [Elementary α] {field : Field α} {p : Point α} {v : Velocity α}
    (hv : field p = .ok v) (hfinite : v.isFinite = true) (params : Params α) :
    (ask field p).moved params p = p + displacement v params := by
  simp [ask, hv, hfinite, moved, velocity?]

/-- What is not moved stays. -/
theorem Answer.moved_ask_of_not_moves [Elementary α] {field : Field α} {p : Point α}
    (h : ¬Moves field p) (params : Params α) : (ask field p).moved params p = p := by
  have hnone : (ask field p).velocity? = none := by
    rw [← Option.not_isSome_iff_eq_none, velocity?_ask_isSome]
    exact h
  unfold moved
  rw [hnone]

/-! ## Ticks -/

namespace Population

variable [Elementary α]

/-- Every live particle is counted, as one that has a velocity or as one that has none. -/
theorem total_step (p : Population α) (field : Field α) :
    (p.step field).1.successes + (p.step field).1.failures = p.particles.length := by
  have htotal := Report.total_foldl Advanced.answer (p.particles.map (p.advance field)) .empty
  rw [List.length_map] at htotal
  exact htotal.trans (Nat.zero_add _)

/-- The first reason of a tick is the first one along the particles, each asked where it is when the
tick begins. -/
theorem firstError_step_eq (p : Population α) (field : Field α) :
    (p.step field).1.firstError =
      p.particles.findSome? fun particle => (Answer.ask field particle.position).cause? := by
  refine (Report.firstError_foldl Advanced.answer (p.particles.map (p.advance field))
    .empty).trans ?_
  rw [List.findSome?_map]
  rfl

/-- A tick tells the reason of the first particle for which the field gives one. -/
theorem firstError_step (p : Population α) (field : Field α) (cause : FieldError) :
    (p.step field).1.firstError = some cause ↔
      ∃ before particle after, p.particles = before ++ particle :: after ∧
        field particle.position = .error cause ∧
        ∀ other ∈ before, ∃ v, field other.position = .ok v := by
  simp only [firstError_step_eq, List.findSome?_eq_some_iff, Answer.cause?_ask_eq_some,
    Answer.cause?_ask_eq_none]

theorem firstError_step_eq_none (p : Population α) (field : Field α) :
    (p.step field).1.firstError = none ↔
      ∀ particle ∈ p.particles, ∃ v, field particle.position = .ok v := by
  simp only [firstError_step_eq, List.findSome?_eq_none_iff, Answer.cause?_ask_eq_none]

theorem successes_step (p : Population α) (field : Field α) :
    (p.step field).1.successes =
      p.particles.countP fun particle =>
        (Answer.ask field particle.position).velocity?.isSome := by
  refine (Report.successes_foldl Advanced.answer (p.particles.map (p.advance field))
    .empty).trans ?_
  rw [List.countP_map]
  exact Nat.zero_add _

/-- A tick is invalid if there are particles, and the field gives none of them a finite velocity.
Where none succeeds all particles are failures, so that there are any is seen from their number. -/
theorem isInvalid_step (p : Population α) (field : Field α) :
    (p.step field).1.isInvalid = true ↔
      p.particles ≠ [] ∧
        ∀ particle ∈ p.particles, ¬ ∃ v, field particle.position = .ok v ∧ v.isFinite = true := by
  have htotal := total_step p field
  have hnone : (p.step field).1.successes = 0 ↔
      ∀ particle ∈ p.particles, ¬ ∃ v, field particle.position = .ok v ∧ v.isFinite = true := by
    simp only [successes_step, List.countP_eq_zero, Answer.velocity?_ask_isSome]
  have hsome : p.particles ≠ [] ↔ 0 < p.particles.length := List.length_pos_iff.symm
  rw [Report.isInvalid, Bool.and_eq_true, beq_iff_eq, decide_eq_true_eq, hnone, hsome, and_comm]
  refine and_congr_left fun hall => ?_
  rw [hnone.mpr hall, Nat.zero_add] at htotal
  rw [htotal]

/-- What a tick shows of a particle: where the velocity takes it that the field gives it where it
is. -/
def shown? (p : Population α) (field : Field α) (particle : Particle α) : Option (Sample α) :=
  match field particle.position with
  | .error _ => none
  | .ok v =>
    if v.isFinite then
      some ⟨particle.position + displacement v p.params,
        (particle.advance (.moving v) p.bounds p.params).alpha p.params, v⟩
    else none

/-- A particle is shown if it has a velocity, and is shown where it was moved to. -/
theorem sample?_advance (p : Population α) (field : Field α) (particle : Particle α) :
    (p.advance field particle).sample? = p.shown? field particle := by
  unfold advance shown? Answer.ask Advanced.sample?
  cases field particle.position with
  | error cause => rfl
  | ok v => dsimp only; split <;> rfl

/-- A tick shows the particles that have a velocity, in their order. -/
theorem samples_step (p : Population α) (field : Field α) :
    (p.step field).2.samples = p.particles.filterMap (p.shown? field) := by
  change (p.particles.map (p.advance field)).filterMap Advanced.sample? = _
  rw [List.filterMap_map]
  exact congrArg (fun f => p.particles.filterMap f) (funext (sample?_advance p field))

end Population

end PhasePortrait
