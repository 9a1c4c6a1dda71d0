import PhasePortrait.Config.Basic
import PhasePortrait.Particle.Population

/-!
# What a check that passes says

A check is a chain of smaller ones, each of which may end it. One that passes has passed all of
them, so a run that has started knows its size, its bounds and its parameters to be in range.
-/

namespace PhasePortrait

/-- A chain succeeds if both of its parts do. This takes a check apart step by step, without looking
at how failures are handed on. -/
theorem bind_eq_ok {ε β γ : Type} {x : Except ε β} {f : β → Except ε γ} {c : γ} :
    (x >>= f) = .ok c ↔ ∃ b, x = .ok b ∧ f b = .ok c := by
  cases x with
  | error cause => simp [bind, Except.bind]
  | ok b => simp [bind, Except.bind]

/-- Other words for a failure make no failure a success. -/
theorem mapError_eq_ok {ε ε' β : Type} {x : Except ε β} {f : ε → ε'} {b : β} :
    x.mapError f = .ok b ↔ x = .ok b := by
  cases x with
  | error cause => exact iff_of_false nofun nofun
  | ok c => exact ⟨fun h => congrArg _ (Except.ok.inj h), fun h => congrArg _ (Except.ok.inj h)⟩

/-- A step of a check has nothing to hand on, so only the two conditions are left. -/
theorem check_bind_eq_ok {ε γ : Type} {x : Except ε Unit} {f : Unit → Except ε γ} {c : γ} :
    (x >>= f) = .ok c ↔ x = .ok () ∧ f () = .ok c := by
  rw [bind_eq_ok]
  constructor
  · rintro ⟨⟨⟩, hx, hf⟩
    exact ⟨hx, hf⟩
  · rintro ⟨hx, hf⟩
    exact ⟨(), hx, hf⟩

/-- A result that is there as an option is there. -/
theorem eq_ok_of_toOption {ε β : Type} {x : Except ε β} {b : β} (h : x.toOption = some b) :
    x = .ok b := by
  cases x with
  | error cause => cases h
  | ok c => exact congrArg Except.ok (Option.some.inj h)

/-- The check of a configuration is the check of its canvas among others. -/
theorem Config.checkDimensions_of_check {config : Config} (h : config.check = .ok ()) :
    (checkDimensions config.width config.height : Except (SetupError Float) Unit) = .ok () := by
  obtain ⟨_, -, h⟩ := bind_eq_ok.mp h
  obtain ⟨⟨⟩, hsize, -⟩ := bind_eq_ok.mp h
  exact hsize

/-- A canvas has pixels, and not too many. Every size that is ever drawn on is checked for this, and
pixels are counted under it. -/
def IsCanvas (width height : Nat) : Prop := 0 < width ∧ 0 < height ∧ width * height ≤ maxPixels

instance (width height : Nat) : Decidable (IsCanvas width height) :=
  inferInstanceAs (Decidable (_ ∧ _ ∧ _))

/-- A size is accepted if it is one of a canvas, and else it is told in the error. -/
theorem checkDimensions_eq {α : Type} (width height : Nat) :
    (checkDimensions width height : Except (SetupError α) Unit) =
      if IsCanvas width height then .ok () else .error (.invalidDimensions width height) := by
  unfold checkDimensions
  by_cases h : IsCanvas width height
  · rw [if_pos h, if_neg (by unfold IsCanvas at h; omega)]
  · rw [if_neg h, if_pos (by unfold IsCanvas at h; omega)]

theorem checkDimensions_eq_ok {α : Type} {width height : Nat} :
    (checkDimensions width height : Except (SetupError α) Unit) = .ok () ↔
      IsCanvas width height := by
  rw [checkDimensions_eq]
  split <;> simp_all

theorem Bounds.check_eq_ok {α : Type} [Scalar α] {bounds : Bounds α} :
    bounds.check = .ok () ↔ bounds.isValid = true := by
  unfold check
  split <;> simp_all

theorem Config.checkFinite_eq_ok {name : String} {value : Float} :
    checkFinite name value = .ok () ↔ value.isFinite = true := by
  unfold checkFinite
  split <;> simp_all

/-- All that the check of a configuration asks for, as conditions. The check stops at the first that
fails, and here the order does not matter any more. -/
theorem Config.check_eq_ok {config : Config} :
    config.check = .ok () ↔
      config.bounds.isValid = true ∧ IsCanvas config.width config.height ∧
        config.a.isFinite = true ∧ config.b.isFinite = true ∧
        (config.params.isObject || config.params.isNull) = true := by
  unfold check
  simp only [check_bind_eq_ok, Bounds.check_eq_ok, checkDimensions_eq_ok, checkFinite_eq_ok,
    ite_eq_left_iff, reduceCtorEq, imp_false, Decidable.not_not]

namespace Params

theorem require_eq_ok {α : Type} {condition : Bool} {name : String} {fault : Fault α} :
    require condition name fault = .ok () ↔ condition = true := by
  unfold require
  split <;> simp_all

variable {α : Type} [Scalar α] {params : Params α}

/-- All that the check of parameters asks for, as conditions on the parameters. -/
theorem check_eq_ok :
    params.check = .ok () ↔
      params.particleCount ≤ maxParticleCount ∧ params.traceCount ≤ maxTraceCount ∧
        params.traceLength ≤ maxTraceLength ∧ params.fadeOut ≤ params.maxAge ∧
        params.recycleStride ≠ 0 ∧ isPart params.recycleAlpha = true ∧
        isPart params.exitDecay = true ∧
        (Scalar.isFinite params.dt = true ∧ ¬params.dt ≤ 0.0) ∧
        Scalar.isFinite params.stepScale = true ∧ ¬params.stepScale < 0.0 := by
  unfold check
  simp only [check_bind_eq_ok, require_eq_ok, decide_eq_true_eq, bne_iff_ne, Bool.and_eq_true,
    Bool.not_eq_true', decide_eq_false_iff_not]

/-- In parameters that pass, a particle lives at least as long as it fades out. -/
theorem fadeOut_le_of_check (h : params.check = .ok ()) : params.fadeOut ≤ params.maxAge := by
  obtain ⟨-, -, -, hfade, -⟩ := check_eq_ok.mp h
  exact hfade

/-- And the stride is not zero, so a remainder by it makes sense. -/
theorem stride_pos_of_check (h : params.check = .ok ()) : 0 < params.recycleStride := by
  obtain ⟨-, -, -, -, hstride, -⟩ := check_eq_ok.mp h
  exact Nat.pos_of_ne_zero hstride

end Params

namespace Population

variable {α : Type} [Scalar α] {bounds : Bounds α} {params : Params α} {seed : UInt64}
  {p : Population α}

/-- A population that is made is that of its seed, and its parameters have passed. -/
theorem eq_of_make (h : make bounds params seed = .ok p) :
    params.check = .ok () ∧ p = ofSeed bounds params seed := by
  obtain ⟨_, -, h⟩ := bind_eq_ok.mp h
  obtain ⟨⟨⟩, hparams, h⟩ := bind_eq_ok.mp h
  exact ⟨hparams, (Except.ok.inj h).symm⟩

/-- Valid bounds and parameters make a population. -/
theorem make_eq_ok (hbounds : bounds.isValid = true) (hparams : params.check = .ok ())
    (seed : UInt64) : make bounds params seed = .ok (ofSeed bounds params seed) :=
  bind_eq_ok.mpr ⟨(), Bounds.check_eq_ok.mpr hbounds, bind_eq_ok.mpr ⟨(), hparams, rfl⟩⟩

end Population

end PhasePortrait
