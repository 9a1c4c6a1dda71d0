import PhasePortrait.Proofs.Exact
import PhasePortrait.Proofs.Setup

/-!
# The opacity of an age

Opacity rises to one while a particle fades in, stays there, and falls to zero at the end of its
life. What the parameters are asked for leaves two things open: the age at which a particle has
faded in may lie behind the age at which it starts to fade out, and behind the end of its life.

**The schedule** (`Schedule.opacity_follows_schedule`). Whatever the ages are, the opacity never
falls before the particle has faded in and never rises from then on, and it is one in between. Past
the end of a life it is zero for exactly the particles that have faded in by then: one that has not
is still fading in, and goes on doing so until it is reborn.

**Where it fails** (`Schedule.visible_past_the_end`). Parameters that pass their check let a particle
be seen past the end of its life.

Quotients are exact (`PhasePortrait.exactScalar`).
-/

namespace PhasePortrait.Schedule

variable {age fadeInAge maxAge fadeOut : Nat}

theorem lifecycleAlpha_le_one : lifecycleAlpha age fadeInAge maxAge fadeOut ≤ (1 : ℝ) :=
  Scalar.clampUnit_le_one _

/-! ## Fading in -/

/-- While it fades in, the opacity of a particle is the part of that time that is over. -/
theorem lifecycleAlpha_of_rising (hage : age ≤ fadeInAge) (hramp : 0 < fadeInAge) :
    (lifecycleAlpha age fadeInAge maxAge fadeOut : ℝ) =
      Scalar.clampUnit ((age : ℝ) / fadeInAge) := by
  unfold lifecycleAlpha
  dsimp only
  rw [if_pos hage, if_neg hramp.ne']

/-- A particle has faded in at the age that is said so. -/
theorem lifecycleAlpha_fadeInAge :
    (lifecycleAlpha fadeInAge fadeInAge maxAge fadeOut : ℝ) = 1 := by
  have hone : (1.0 : ℝ) = 1 := by norm_num
  unfold lifecycleAlpha
  dsimp only
  rw [if_pos le_rfl]
  split
  next => rw [hone, Scalar.clampUnit_eq, min_self, max_eq_right zero_le_one]
  next hramp =>
    rw [div_self (Nat.cast_ne_zero.mpr hramp), Scalar.clampUnit_eq, min_self,
      max_eq_right zero_le_one]

theorem lifecycleAlpha_mono_of_rising {later : Nat} (hage : age ≤ later)
    (hlater : later ≤ fadeInAge) :
    (lifecycleAlpha age fadeInAge maxAge fadeOut : ℝ) ≤
      lifecycleAlpha later fadeInAge maxAge fadeOut := by
  rcases Nat.eq_zero_or_pos fadeInAge with hstep | hramp
  · obtain rfl : age = later := by omega
    exact le_rfl
  · rw [lifecycleAlpha_of_rising (hage.trans hlater) hramp, lifecycleAlpha_of_rising hlater hramp]
    apply Scalar.clampUnit_mono
    gcongr

/-- A particle that still fades in is seen from its first tick on. -/
theorem lifecycleAlpha_ne_zero_of_rising (hpos : 0 < age) (hage : age ≤ fadeInAge) :
    (lifecycleAlpha age fadeInAge maxAge fadeOut : ℝ) ≠ 0 := by
  rw [lifecycleAlpha_of_rising hage (hpos.trans_le hage), Ne, Scalar.clampUnit_eq_zero, not_le]
  have hage' : (0 : ℝ) < age := Nat.cast_pos.mpr hpos
  have hramp : (0 : ℝ) < fadeInAge := Nat.cast_pos.mpr (hpos.trans_le hage)
  exact div_pos hage' hramp

/-! ## Between -/

theorem lifecycleAlpha_of_full (hage : fadeInAge < age) (hfull : age ≤ maxAge - fadeOut) :
    (lifecycleAlpha age fadeInAge maxAge fadeOut : ℝ) = 1 := by
  have hone : (1.0 : ℝ) = 1 := by norm_num
  unfold lifecycleAlpha
  dsimp only
  rw [if_neg (not_le.mpr hage), if_neg (not_lt.mpr hfull), hone, Scalar.clampUnit_eq, min_self,
    max_eq_right zero_le_one]

/-! ## Fading out -/

/-- While it fades out, the opacity of a particle is the part of that time that is left. Of no time
nothing is left, as a quotient by zero is zero. -/
theorem lifecycleAlpha_of_falling (hage : fadeInAge < age) (hout : maxAge - fadeOut < age) :
    (lifecycleAlpha age fadeInAge maxAge fadeOut : ℝ) =
      Scalar.clampUnit (((maxAge : ℝ) - age) / fadeOut) := by
  have hzero : (0.0 : ℝ) = 0 := by norm_num
  unfold lifecycleAlpha
  dsimp only
  rw [if_neg (not_le.mpr hage), if_pos hout]
  split
  next hstep => rw [hstep, Nat.cast_zero, div_zero, hzero]
  next => rfl

theorem lifecycleAlpha_anti_of_falling {later : Nat} (hage : fadeInAge ≤ age)
    (hlater : age ≤ later) :
    (lifecycleAlpha later fadeInAge maxAge fadeOut : ℝ) ≤
      lifecycleAlpha age fadeInAge maxAge fadeOut := by
  rcases hage.eq_or_lt with rfl | hin
  · rw [lifecycleAlpha_fadeInAge]
    exact lifecycleAlpha_le_one
  · rcases le_or_gt age (maxAge - fadeOut) with hfull | hout
    · rw [lifecycleAlpha_of_full hin hfull]
      exact lifecycleAlpha_le_one
    · rw [lifecycleAlpha_of_falling hin hout,
        lifecycleAlpha_of_falling (hin.trans_le hlater) (hout.trans_le hlater)]
      apply Scalar.clampUnit_mono
      gcongr

/-- What has faded in has faded out by the end of its life, unless it does so at one stroke. -/
theorem lifecycleAlpha_eq_zero_of_falling (hage : fadeInAge < age) (hout : maxAge - fadeOut < age)
    (hend : maxAge ≤ age) : (lifecycleAlpha age fadeInAge maxAge fadeOut : ℝ) = 0 := by
  rw [lifecycleAlpha_of_falling hage hout, Scalar.clampUnit_eq_zero]
  have hend' : (maxAge : ℝ) ≤ age := Nat.cast_le.mpr hend
  exact div_nonpos_of_nonpos_of_nonneg (sub_nonpos.mpr hend') (Nat.cast_nonneg _)

/-! ## The schedule -/

/-- **Opacity follows its schedule.** For parameters that pass their check and any age of having
faded in, the opacity does not fall up to that age, is one from there to where the particle starts
to fade out, and does not rise from that age on. Past the end of its life a particle has no opacity
if and only if it has faded in by then; at the very end, where there is a time of fading out, if and
only if it had faded in before. -/
theorem opacity_follows_schedule {params : Params ℝ} (hcheck : params.check = .ok ())
    (fadeInAge : Nat) :
    let opacity (age : Nat) : ℝ := lifecycleAlpha age fadeInAge params.maxAge params.fadeOut
    (∀ age later, age ≤ later → later ≤ fadeInAge → opacity age ≤ opacity later) ∧
    (∀ age, fadeInAge < age → age ≤ params.maxAge - params.fadeOut → opacity age = 1) ∧
    (∀ age later, fadeInAge ≤ age → age ≤ later → opacity later ≤ opacity age) ∧
    (∀ age, params.maxAge < age → (opacity age = 0 ↔ fadeInAge < age)) ∧
    (0 < params.fadeOut → (opacity params.maxAge = 0 ↔ fadeInAge < params.maxAge)) := by
  intro opacity
  have hfade := Params.fadeOut_le_of_check hcheck
  refine ⟨fun age later => lifecycleAlpha_mono_of_rising, fun age => lifecycleAlpha_of_full,
    fun age later => lifecycleAlpha_anti_of_falling, ?_, ?_⟩
  · intro age hend
    constructor
    · intro hzero
      by_contra hrising
      exact lifecycleAlpha_ne_zero_of_rising (by omega) (not_lt.mp hrising) hzero
    · intro hin
      exact lifecycleAlpha_eq_zero_of_falling hin (by omega) hend.le
  · intro hramp
    constructor
    · intro hzero
      by_contra hrising
      exact lifecycleAlpha_ne_zero_of_rising (by omega) (not_lt.mp hrising) hzero
    · intro hin
      exact lifecycleAlpha_eq_zero_of_falling hin (by omega) le_rfl

/-- Particles of a short life, which fade in over the usual time. -/
noncomputable def lateFadeIn : Params ℝ := { Params.default with maxAge := 10, fadeOut := 5 }

theorem check_lateFadeIn : lateFadeIn.check = .ok () := by
  rw [Params.check_eq_ok]
  simp only [lateFadeIn, Params.default, Params.isPart, Params.maxParticleCount,
    Params.maxTraceCount, Params.maxTraceLength, Scalar.isFinite]
  norm_num

theorem schedule_of_lateFadeIn :
    lateFadeIn.check = .ok () ∧
      (lifecycleAlpha 11 3 lateFadeIn.maxAge lateFadeIn.fadeOut : ℝ) = 0 := by
  refine ⟨check_lateFadeIn, ?_⟩
  obtain ⟨-, -, -, hend, -⟩ := opacity_follows_schedule check_lateFadeIn 3
  exact (hend 11 (by decide)).mpr (by decide)

/-- A particle that fades in until the age of 20 is seen when its life of 10 ticks is over. -/
theorem visible_past_the_end :
    lateFadeIn.check = .ok () ∧ 20 < lateFadeIn.fadeIn ∧ lateFadeIn.maxAge < 11 ∧
      (lifecycleAlpha 11 20 lateFadeIn.maxAge lateFadeIn.fadeOut : ℝ) ≠ 0 :=
  ⟨check_lateFadeIn, by decide, by decide, lifecycleAlpha_ne_zero_of_rising (by decide) (by decide)⟩

end PhasePortrait.Schedule
