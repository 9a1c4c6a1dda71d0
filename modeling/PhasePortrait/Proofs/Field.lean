import PhasePortrait.Proofs.Particle.Tally

/-!
# What a planar system answers

An equation that has a value has a finite one, so a planar system either gives a finite velocity or
names an equation that failed: the first one if that failed, whatever becomes of the second, and the
second one only if the first has a value.

What a tick in such a field tells is therefore read off the particles, one by one, from the left.
-/

namespace PhasePortrait

variable {α : Type} [Scalar α] [Elementary α] [Numeral α]

/-- A walk that ends well ends with a finite value. -/
theorem Expr.isFinite_of_walk {bindings : Expr.Bindings α} {tokens : List (Expr.Token α)} {value : α}
    (h : Expr.walk bindings tokens = .ok value) : Scalar.isFinite value = true := by
  unfold Expr.walk at h
  split at h
  · cases h
  · cases h
  · split at h
    next hfinite =>
      obtain rfl := Except.ok.inj h
      exact hfinite
    next => cases h

theorem Expression.isFinite_of_eval {e : Expression α} {bindings : Expr.Bindings α} {value : α}
    (h : e.eval bindings = .ok value) : Scalar.isFinite value = true := by
  unfold eval at h
  split at h
  · cases h
  · exact Expr.isFinite_of_walk h

namespace VectorField

/-- The values of the names at a point. -/
def bindingsAt (f : VectorField α) (p : Point α) : Expr.Bindings α := ⟨p.x, p.y, f.a, f.b⟩

/-- The two equations are asked one after another, the second one only if the first has a value. -/
theorem velocityAt_eq (f : VectorField α) (p : Point α) :
    f.velocityAt p =
      component .dx f.dx (f.bindingsAt p) >>= fun vx =>
        component .dy f.dy (f.bindingsAt p) >>= fun vy => .ok ⟨vx, vy⟩ := rfl

/-- The velocity of a planar system is that of its two equations. There is none unless both have a
value. -/
theorem velocityAt_eq_ok {f : VectorField α} {p : Point α} {v : Velocity α} :
    f.velocityAt p = .ok v ↔
      f.dx.eval (f.bindingsAt p) = .ok v.vx ∧ f.dy.eval (f.bindingsAt p) = .ok v.vy := by
  rw [velocityAt_eq]
  cases hx : f.dx.eval (f.bindingsAt p) with
  | error cause => simp [component, hx, bind, Except.bind]
  | ok vx =>
    cases hy : f.dy.eval (f.bindingsAt p) with
    | error cause => simp [component, hx, hy, bind, Except.bind]
    | ok vy =>
      obtain ⟨x, y⟩ := v
      simp [component, hx, hy, bind, Except.bind]

/-- **Which equation is named.** The first one if it fails, and else the second. Where both fail the
second one is never looked at. -/
theorem velocityAt_eq_error {f : VectorField α} {p : Point α} {cause : FieldError} :
    f.velocityAt p = .error cause ↔
      (∃ e, f.dx.eval (f.bindingsAt p) = .error e ∧ cause = .expression .dx f.dx.source e) ∨
      (∃ vx e, f.dx.eval (f.bindingsAt p) = .ok vx ∧ f.dy.eval (f.bindingsAt p) = .error e ∧
        cause = .expression .dy f.dy.source e) := by
  rw [velocityAt_eq]
  cases hx : f.dx.eval (f.bindingsAt p) with
  | error e => simp [component, hx, bind, Except.bind, eq_comm]
  | ok vx =>
    cases hy : f.dy.eval (f.bindingsAt p) with
    | error e => simp [component, hx, hy, bind, Except.bind, eq_comm]
    | ok vy => simp [component, hx, hy, bind, Except.bind]

/-- A velocity that is given is finite, since both of its parts are values of equations. -/
theorem isFinite_of_velocityAt {f : VectorField α} {p : Point α} {v : Velocity α}
    (h : f.velocityAt p = .ok v) : v.isFinite = true := by
  obtain ⟨hx, hy⟩ := velocityAt_eq_ok.mp h
  rw [Velocity.isFinite, Expression.isFinite_of_eval hx, Expression.isFinite_of_eval hy]
  rfl

end VectorField

/-! ## Ticks -/

/-- **What a line tells** about the particles for which a planar system was asked. The cases are
told apart by how many of them got a velocity: all, none, or some. -/
structure VectorField.Tells (f : VectorField α) (particles : List (Particle α))
    (line : Option String) : Prop where
  /-- There is none if every particle has a velocity. -/
  quiet : line = none ↔ ∀ particle ∈ particles, ∃ v, f.velocityAt particle.position = .ok v
  /-- Where none of them has one the field is invalid, and the first particle shows why. -/
  invalid : particles ≠ [] →
    (∀ particle ∈ particles, ∀ v, f.velocityAt particle.position ≠ .ok v) →
    ∃ first rest cause, particles = first :: rest ∧ f.velocityAt first.position = .error cause ∧
      line = some (FieldError.noParticle.message ++ ": " ++ cause.message)
  /-- Otherwise it is about the first particle that has none. -/
  partly : (∃ particle ∈ particles, ∃ v, f.velocityAt particle.position = .ok v) →
    (∃ particle ∈ particles, ∀ v, f.velocityAt particle.position ≠ .ok v) →
    ∃ before particle after cause, particles = before ++ particle :: after ∧
      (∀ other ∈ before, ∃ v, f.velocityAt other.position = .ok v) ∧
      f.velocityAt particle.position = .error cause ∧ line = some cause.message

namespace Population

variable (p : Population α) (f : VectorField α)

/-- A tick is invalid if there are particles, and each of them lacks the value of an equation. -/
theorem isInvalid_step_velocityAt :
    (p.step f.velocityAt).1.isInvalid = true ↔
      p.particles ≠ [] ∧ ∀ particle ∈ p.particles, ∀ v, f.velocityAt particle.position ≠ .ok v := by
  rw [isInvalid_step]
  refine and_congr_right fun _ => forall₂_congr fun particle _ => ?_
  constructor
  · intro hnone v hv
    exact hnone ⟨v, hv, VectorField.isFinite_of_velocityAt hv⟩
  · rintro hnone ⟨v, hv, -⟩
    exact hnone v hv

theorem status?_step_eq_none :
    (p.step f.velocityAt).1.status? = none ↔
      ∀ particle ∈ p.particles, ∃ v, f.velocityAt particle.position = .ok v := by
  rw [← firstError_step_eq_none]
  cases hfirst : (p.step f.velocityAt).1.firstError with
  | some cause =>
    rw [Report.status?_of_some hfirst]
    simp
  | none =>
    -- No particle failed, so there is none in an invalid tick.
    have hvalid : (p.step f.velocityAt).1.isInvalid ≠ true := by
      intro hinvalid
      obtain ⟨hsome, hnone⟩ := (isInvalid_step_velocityAt p f).mp hinvalid
      obtain ⟨particle, hparticle⟩ := List.exists_mem_of_ne_nil _ hsome
      obtain ⟨v, hv⟩ := (firstError_step_eq_none p f.velocityAt).mp hfirst particle hparticle
      exact hnone particle hparticle v hv
    rw [Report.status?_of_none hfirst, if_neg hvalid]
    simp

/-- If none has one, the line names what failed for the first particle. It says besides that there
is no valid particle at all. -/
theorem status?_step_of_none_moved (hsome : p.particles ≠ [])
    (hnone : ∀ particle ∈ p.particles, ∀ v, f.velocityAt particle.position ≠ .ok v) :
    ∃ first rest cause, p.particles = first :: rest ∧
      f.velocityAt first.position = .error cause ∧
      (p.step f.velocityAt).1.status? =
        some (FieldError.noParticle.message ++ ": " ++ cause.message) := by
  obtain ⟨first, rest, hparticles⟩ := List.exists_cons_of_ne_nil hsome
  have hmem : first ∈ p.particles := by
    rw [hparticles]
    exact List.mem_cons_self
  cases hfirst : f.velocityAt first.position with
  | ok v => exact absurd hfirst (hnone first hmem v)
  | error cause =>
    have hcause : (p.step f.velocityAt).1.firstError = some cause :=
      (firstError_step p f.velocityAt cause).mpr ⟨[], first, rest, hparticles, hfirst, nofun⟩
    refine ⟨first, rest, cause, hparticles, hfirst, ?_⟩
    rw [Report.status?_of_some hcause, if_pos ((isInvalid_step_velocityAt p f).mpr ⟨hsome, hnone⟩)]

/-- If some have one, the line names what failed for the first particle that has none. Particles
before that one all have a velocity. -/
theorem status?_step_of_some_moved
    (hmoved : ∃ particle ∈ p.particles, ∃ v, f.velocityAt particle.position = .ok v)
    (hfailed : ∃ particle ∈ p.particles, ∀ v, f.velocityAt particle.position ≠ .ok v) :
    ∃ before particle after cause, p.particles = before ++ particle :: after ∧
      (∀ other ∈ before, ∃ v, f.velocityAt other.position = .ok v) ∧
      f.velocityAt particle.position = .error cause ∧
      (p.step f.velocityAt).1.status? = some cause.message := by
  have hvalid : (p.step f.velocityAt).1.isInvalid ≠ true := by
    intro hinvalid
    obtain ⟨particle, hparticle, v, hv⟩ := hmoved
    exact ((isInvalid_step_velocityAt p f).mp hinvalid).2 particle hparticle v hv
  cases hfirst : (p.step f.velocityAt).1.firstError with
  | none =>
    obtain ⟨particle, hparticle, hnone⟩ := hfailed
    obtain ⟨v, hv⟩ := (firstError_step_eq_none p f.velocityAt).mp hfirst particle hparticle
    exact absurd hv (hnone v)
  | some cause =>
    obtain ⟨before, particle, after, hparticles, herror, hbefore⟩ :=
      (firstError_step p f.velocityAt cause).mp hfirst
    refine ⟨before, particle, after, cause, hparticles, hbefore, herror, ?_⟩
    rw [Report.status?_of_some hfirst, if_neg hvalid]

/-- The status after a tick tells about the particles as the tick found them. -/
theorem tells_step : f.Tells p.particles (p.step f.velocityAt).1.status? where
  quiet := status?_step_eq_none p f
  invalid := status?_step_of_none_moved p f
  partly := status?_step_of_some_moved p f

end Population

end PhasePortrait
