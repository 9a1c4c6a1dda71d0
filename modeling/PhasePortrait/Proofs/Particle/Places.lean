import PhasePortrait.Proofs.Binary64.Decimals
import PhasePortrait.Proofs.Particle.Invariant
import PhasePortrait.Proofs.Particle.Lifetime

/-!
# Where particles are put

A number that is drawn between two others is not below the lower one and is below the upper one
(`Draw.between_mem`), whatever rounding does: the lower one is taken where the sum would reach the
upper one, and also where it is no number at all, because the extent is too large for one. So
**a new particle is inside the bounds in force**, live or traced, whenever it is made.

Bounds that are moved take the traced particles along only while traces are on. Traced particles that
were seeded while they are off are left where the old bounds were (`Population.left_outside`).
-/

namespace PhasePortrait

namespace Binary64

/-- What is not below a number but below some number compares with the first one. That it is below
something rules out what is no number, which is not below anything. -/
theorem le_of_not_lt_of_lt {x y z : Float} (hx : x.isFinite = true) (hyx : ¬y < x) (hyz : y < z) :
    x ≤ y := by
  by_cases hy : y.isFinite = true
  · rwa [lt_iff_not_le hy hx, not_not] at hyx
  · rw [lt_iff_unpack] at hyx hyz
    replace hy : ¬y.toModel.unpack.isFinite = true := hy
    replace hx : x.toModel.unpack.isFinite = true := hx
    exfalso
    generalize x.toModel.unpack = u at hx hyx
    generalize z.toModel.unpack = w at hyz
    generalize y.toModel.unpack = v at hy hyx hyz
    cases v with
    | zero | finite => exact hy rfl
    | notANumber => cases w <;> cases hyz
    | infinity sign =>
      cases sign with
      | negative =>
        cases u with
        | infinity | notANumber => cases hx
        | zero | finite => exact hyx rfl
      | positive =>
        cases w with
        | infinity sign' => cases sign' <;> cases hyz
        | notANumber | zero | finite => cases hyz

end Binary64

namespace Draw

theorem not_unit_lt_zero (g : Generator) : ¬(unit g : Float × Generator).1 < 0.0 := by
  have hstep : ¬(1.0 : Float) / ((Nat.pow 2 53 : Nat) : Float) < 0.0 := by decide +kernel
  exact Binary64.not_mul_lt_zero (Binary64.not_ofNat_lt_zero _) hstep

/-- **A number that is drawn between two others** is one of those from the lower one up to but not
the upper one. -/
theorem between_mem {low high : Float} (hlow : low.isFinite = true) (hhigh : high.isFinite = true)
    (hlt : ¬high ≤ low) : Ensures (fun x => low ≤ x ∧ x < high) (between low high) := by
  intro g
  have hbelow : low < high := (Binary64.lt_iff_not_le hlow hhigh).mpr hlt
  have hextent := Binary64.not_sub_lt_zero hlow hhigh (Binary64.le_of_lt hbelow)
  have hoffset := Binary64.not_mul_lt_zero (not_unit_lt_zero g) hextent
  have hsum := Binary64.not_add_lt hlow hoffset
  change low ≤ (if low + (unit g).1 * (high - low) < high then _ else low) ∧
    (if low + (unit g).1 * (high - low) < high then _ else low) < high
  split
  next hin => exact ⟨Binary64.le_of_not_lt_of_lt hlow hsum hin, hin⟩
  next => exact ⟨(Binary64.le_iff_value hlow hlow).mpr le_rfl, hbelow⟩

end Draw

namespace Bounds

/-- A point inside the bounds, whose right and upper edges do not count. -/
structure Covers (b : Bounds Float) (p : Point Float) : Prop where
  left : b.xMin ≤ p.x
  right : p.x < b.xMax
  bottom : b.yMin ≤ p.y
  top : p.y < b.yMax

variable {b : Bounds Float} {p : Point Float}

theorem Covers.contains (h : b.Covers p) : b.contains p = true := by
  have hright := Binary64.le_of_lt h.right
  have htop := Binary64.le_of_lt h.top
  simp only [Bounds.contains, decide_eq_true h.left, decide_eq_true hright, decide_eq_true h.bottom,
    decide_eq_true htop, Bool.and_self]

theorem covers_randomPoint (h : b.isValid = true) : Draw.Ensures b.Covers b.randomPoint := by
  simp only [isValid, Bool.and_eq_true, Bool.not_eq_true', decide_eq_false_iff_not] at h
  obtain ⟨⟨⟨⟨⟨hxMin, hxMax⟩, hyMin⟩, hyMax⟩, hx⟩, hy⟩ := h
  refine Draw.Ensures.bind (Draw.between_mem hxMin hxMax hx) fun x hx => ?_
  refine Draw.Ensures.bind (Draw.between_mem hyMin hyMax hy) fun y hy => ?_
  exact .pure ⟨hx.1, hx.2, hy.1, hy.2⟩

end Bounds

namespace Particle

variable {bounds : Bounds Float} {params : Params Float}

theorem covers_reborn (h : bounds.isValid = true) :
    Draw.Ensures (fun p => bounds.Covers p.position) (reborn bounds params) :=
  (Bounds.covers_randomPoint h).bind fun _ hpoint => fun _ => hpoint

theorem covers_spawn (h : bounds.isValid = true) :
    Draw.Ensures (fun p => bounds.Covers p.position) (spawn bounds params) :=
  (covers_reborn h).bind fun _ hparticle => fun _ => hparticle

end Particle

namespace Population

variable {p q : Population Float}

theorem covers_reseedTraces (h : p.bounds.isValid = true) :
    ∀ t ∈ p.reseedTraces.traced, p.bounds.Covers t.position := by
  intro t ht
  obtain ⟨place, hplace, rfl⟩ := List.mem_map.mp ht
  obtain ⟨g, rfl⟩ := Draw.exists_of_mem_times hplace
  exact Bounds.covers_randomPoint h g

/-- What becomes of the traced particles when the bounds are moved: they are seeded anew inside
while traces are on, and stay where they are while traces are off. -/
theorem traced_setBounds {moved : Bounds Float} (h : p.setBounds moved = .ok q) :
    q.bounds = moved ∧ (p.traceEnabled = true → ∀ t ∈ q.traced, moved.Covers t.position) ∧
      (p.traceEnabled = false → q.traced = p.traced) := by
  obtain ⟨⟨⟩, hcheck, h⟩ := bind_eq_ok.mp h
  obtain rfl := Except.ok.inj h
  have hvalid := Bounds.check_eq_ok.mp hcheck
  dsimp only
  split
  next hon =>
    exact ⟨rfl, fun _ => covers_reseedTraces hvalid, fun hoff => absurd hon (by simp [hoff])⟩
  next hoff => exact ⟨rfl, fun hon => absurd hon hoff, fun _ => rfl⟩

/-- **New positions are always inside.** A point of valid bounds is drawn from them, short of the
right and the upper edge, whatever the state of the generator; an extent that is too large for a
number is no exception.

So every particle of a new population is inside its bounds. After any run, a particle that a tick
renews is inside the bounds of that tick, and so is every traced particle when traces are seeded or
turned on. When the bounds are moved, the traced particles are inside the new ones if traces are on;
if they are off nothing is seeded, and there is nothing to seed unless there were traced particles
all the same. -/
theorem new_positions_are_inside {bounds : Bounds Float} (hbounds : bounds.isValid = true)
    {params : Params Float} (hparams : params.check = .ok ()) (seed : UInt64) :
    (∀ g, bounds.Covers (bounds.randomPoint g).1 ∧
      bounds.contains (bounds.randomPoint g).1 = true) ∧
    ∃ start, make bounds params seed = .ok start ∧
      (∀ particle ∈ start.particles, bounds.Covers particle.position) ∧
      ∀ ops : List (Operation Float),
        let p := start.performAll ops
        (∀ field i, renews i (p, field) = true →
          ∃ reborn, (p.step field).2.particles[i]? = some reborn ∧
            p.bounds.Covers reborn.position) ∧
        (∀ t ∈ p.reseedTraces.traced, p.bounds.Covers t.position) ∧
        (∀ t ∈ (p.setTrace true).traced, p.bounds.Covers t.position) ∧
        (∀ moved q, p.setBounds moved = .ok q →
          q.bounds = moved ∧
          (p.traceEnabled = true → ∀ t ∈ q.traced, moved.Covers t.position) ∧
          (p.traceEnabled = false → q.traced = p.traced) ∧
          (isSeeded ops = p.traceEnabled → ∀ t ∈ q.traced, moved.Covers t.position)) := by
  have hpoint := Bounds.covers_randomPoint hbounds
  refine ⟨fun g => ⟨hpoint g, (hpoint g).contains⟩, _, make_eq_ok hbounds hparams seed, ?_, ?_⟩
  · intro particle hparticle
    obtain ⟨g, rfl⟩ := Draw.exists_of_mem_times hparticle
    exact Particle.covers_spawn hbounds g
  · intro ops p
    have hp : Sound params (isSeeded ops) p := (sound_ofSeed hbounds seed).performAll ops
    refine ⟨?_, covers_reseedTraces hp.isValid_bounds, ?_, ?_⟩
    · intro field i hrenews
      obtain ⟨found, hfound⟩ : ∃ found, p.particles[i]? = some found := by
        cases hfound : p.particles[i]? with
        | some found => exact ⟨found, rfl⟩
        | none => simp [renews, isDue, hfound] at hrenews
      obtain ⟨g, hg⟩ := getElem?_step_of_renews hfound hrenews
      exact ⟨_, hg, Particle.covers_reborn hp.isValid_bounds g⟩
    · exact covers_reseedTraces (p := { p with traceEnabled := true }) hp.isValid_bounds
    · intro moved q hmoved
      obtain ⟨heq, hon, hoff⟩ := traced_setBounds hmoved
      refine ⟨heq, hon, hoff, fun hseeded => ?_⟩
      cases htrace : p.traceEnabled with
      | true => exact hon htrace
      | false =>
        -- Nothing was seeded, so there is nothing to be outside.
        have hnone := hp.length_traced
        rw [hseeded, htrace] at hnone
        have hempty := List.eq_nil_of_length_eq_zero hnone
        rw [hoff htrace, hempty]
        exact fun t ht => absurd ht List.not_mem_nil

/-- Bounds that are so wide that their extent is no number. -/
def widest : Bounds Float := ⟨-1.0e308, 1.0e308, -1.0, 1.0⟩

/-- The traced particles are inside when traces are turned on in bounds of infinite extent, and again
when these are moved after a tick. -/
theorem inside_widest :
    widest.isValid = true ∧ widest.width.isFinite = false ∧ fewTraced.check = .ok () ∧
      ∃ start, make widest fewTraced 7 = .ok start ∧
        (∀ t ∈ (start.setTrace true).traced, widest.contains t.position = true) ∧
        let p := start.performAll [.setTrace true, .step fun _ => .error .noParticle]
        ∀ q, p.setBounds Bounds.default = .ok q →
          ∀ t ∈ q.traced, Bounds.default.contains t.position = true := by
  have hbounds : widest.isValid = true := by decide +kernel
  have hparams : fewTraced.check = .ok () := rfl
  obtain ⟨-, start, hmade, -, hinside⟩ := new_positions_are_inside hbounds hparams 7
  obtain ⟨-, -, hon, -⟩ := hinside []
  obtain ⟨-, -, -, hmoved⟩ := hinside [.setTrace true, .step fun _ => .error .noParticle]
  obtain ⟨-, rfl⟩ := eq_of_make hmade
  refine ⟨hbounds, by decide +kernel, hparams, _, hmade, fun t ht => (hon t ht).contains, ?_⟩
  intro p q hq t ht
  obtain ⟨-, -, -, hseeded⟩ := hmoved _ q hq
  exact (hseeded rfl t ht).contains

/-- Traced particles that are seeded while traces are off do not follow the bounds. -/
theorem left_outside :
    let start := ofSeed Bounds.default fewTraced 7
    let moved : Bounds Float := ⟨10.0, 20.0, 10.0, 20.0⟩
    let p := start.performAll [.reseedTraces, .setBounds moved]
    make Bounds.default fewTraced 7 = .ok start ∧ p.bounds = moved ∧ p.traced.length = 2 ∧
      ∀ t ∈ p.traced, p.bounds.contains t.position = false := by
  intro start moved p
  have hbounds : (Bounds.default : Bounds Float).isValid = true := by decide +kernel
  have hparams : fewTraced.check = .ok () := rfl
  refine ⟨make_eq_ok hbounds hparams 7, ?_⟩
  decide +kernel

end Population

end PhasePortrait
