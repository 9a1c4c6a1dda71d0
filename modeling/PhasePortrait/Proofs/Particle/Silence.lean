import PhasePortrait.Flow
import PhasePortrait.Proofs.Field
import PhasePortrait.Proofs.Particle.Invariant
import PhasePortrait.Proofs.Simulation.Run

/-!
# Failures in silence

A tick counts the particles without a velocity, and it keeps the first reason that it was given for
one of them. The two do not go together: a velocity that is not finite is counted and comes without
a reason. Where the field answers so and gives no reasons at all, a tick in which other particles
moved has failures and nothing to tell (`Population.FailsSilently`).

**The law** (`Population.failure_is_told_unless_silent`): that is the only way. Every other tick with
a failure tells an error and a line, and a tick without one tells neither. A loop takes its line over
from the tick, so a line may be cleared by a tick that failed in silence. A planar system never
answers with a velocity that is not finite: in a loop of flows only a tick in which every particle
moved clears the line.
-/

namespace PhasePortrait

variable {α : Type}

namespace Report

theorem isClean_iff {r : Report} : r.isClean = true ↔ r.failures = 0 := beq_iff_eq

theorem not_isInvalid_of_isClean {r : Report} (h : r.isClean = true) : r.isInvalid = false := by
  simp [isInvalid, isClean_iff.mp h]

theorem error?_eq_none {r : Report} :
    r.error? = none ↔ r.isInvalid = false ∧ r.firstError = none := by
  unfold error?
  cases r.isInvalid <;> simp

/-- There is a line exactly where there is an error. -/
theorem status?_eq_none {r : Report} : r.status? = none ↔ r.error? = none := by
  rw [error?_eq_none]
  cases hfirst : r.firstError with
  | some cause => simp [status?_of_some hfirst]
  | none => simp [status?_of_none hfirst]

end Report

variable [Scalar α]

namespace Population

/-- **A failure that nothing is told about.** Some particles move and some do not, and the field
gives no reason for any of them. -/
structure FailsSilently (p : Population α) (field : Field α) : Prop where
  moved : ∃ particle ∈ p.particles, Moves field particle.position
  failed : ∃ particle ∈ p.particles, ¬Moves field particle.position
  noReason : ∀ particle ∈ p.particles, ∃ v, field particle.position = .ok v

variable [Elementary α] {p : Population α} {field : Field α}

theorem isClean_step :
    (p.step field).1.isClean = true ↔ ∀ particle ∈ p.particles, Moves field particle.position := by
  have htotal := total_step p field
  have hall : (p.step field).1.successes = p.particles.length ↔
      ∀ particle ∈ p.particles, Moves field particle.position := by
    simp only [successes_step, List.countP_eq_length, Answer.velocity?_ask_isSome, Moves]
  rw [Report.isClean_iff, ← hall]
  omega

/-- **The ticks that tell nothing**: those without a failure, and those that fail in silence. A tick
in which no particle moved always has something to tell. -/
theorem error?_step_eq_none :
    (p.step field).1.error? = none ↔
      (p.step field).1.isClean = true ∨ FailsSilently p field := by
  rw [Report.error?_eq_none, firstError_step_eq_none]
  constructor
  · rintro ⟨hvalid, hreason⟩
    by_cases hclean : (p.step field).1.isClean = true
    · exact .inl hclean
    · right
      obtain ⟨failed, hfailed, hnot⟩ : ∃ particle ∈ p.particles, ¬Moves field particle.position := by
        simpa [isClean_step] using hclean
      refine ⟨?_, ⟨failed, hfailed, hnot⟩, hreason⟩
      -- A tick that moved nothing would be invalid.
      by_contra hnone
      rw [Bool.eq_false_iff, ne_eq, isInvalid_step] at hvalid
      apply hvalid
      exact ⟨List.ne_nil_of_mem hfailed, fun particle hparticle hmoves =>
        hnone ⟨particle, hparticle, hmoves⟩⟩
  · rintro (hclean | hsilent)
    · refine ⟨Report.not_isInvalid_of_isClean hclean, fun particle hparticle => ?_⟩
      exact exists_ok_of_moves (isClean_step.mp hclean particle hparticle)
    · refine ⟨?_, hsilent.noReason⟩
      rw [Bool.eq_false_iff, ne_eq, isInvalid_step]
      rintro ⟨-, hnone⟩
      obtain ⟨particle, hparticle, hmoves⟩ := hsilent.moved
      exact hnone particle hparticle hmoves

theorem not_isClean_of_failsSilently (h : FailsSilently p field) :
    (p.step field).1.isClean ≠ true := by
  intro hclean
  obtain ⟨particle, hparticle, hnot⟩ := h.failed
  exact hnot (isClean_step.mp hclean particle hparticle)

/-- A planar system gives a reason wherever it does not move a particle. -/
theorem not_failsSilently_velocityAt [Numeral α] (p : Population α) (f : VectorField α) :
    ¬FailsSilently p f.velocityAt := by
  intro h
  obtain ⟨particle, hparticle, hnot⟩ := h.failed
  obtain ⟨v, hv⟩ := h.noReason particle hparticle
  exact hnot ⟨v, hv, VectorField.isFinite_of_velocityAt hv⟩

end Population

/-! ## Loops -/

namespace Simulation

variable {σ φ ρ : Type} [Engine σ]

/-- What a tick does to the line: it is that of the report, and stays where there was no tick. -/
theorem status_tick (s : Simulation σ φ) (draw : Drawing ρ) (r : ρ) :
    (∃ engine, s.engine = some engine ∧ (s.tick draw r).1 = some (Engine.step engine).1 ∧
      (s.tick draw r).2.1.status = (Engine.step engine).1.status?) ∨
    (s.tick draw r).1 = none ∧ (s.tick draw r).2.1.status = s.status := by
  cases hrunning : s.isRunning with
  | true =>
    obtain ⟨⟨engine, hengine⟩, hcancelled⟩ := isRunning_iff.mp hrunning
    rw [tick_of_running hengine hcancelled]
    exact .inl ⟨engine, hengine, rfl, rfl⟩
  | false =>
    rw [tick_of_not_running hrunning]
    refine .inr ⟨rfl, ?_⟩
    show s.heed.status = s.status
    unfold heed
    split <;> rfl

end Simulation

namespace Population

variable [Elementary α]

/-- **A failure is told unless it is silent.** Whatever the particles and the field are, a tick is
clean if every particle moved, and it has an error exactly where it has a line. It has neither if it
is clean or failed in silence; so being clean and having no error are one thing exactly for the ticks
that do not fail in silence. A planar system never fails in silence.

The line of a loop is that of its last tick, whatever its engine is. In a loop of flows, a line is
cleared only by a tick in which every particle moved. -/
theorem failure_is_told_unless_silent (p : Population α) (field : Field α) :
    let report := (p.step field).1
    (report.isClean = true ↔ ∀ particle ∈ p.particles, Moves field particle.position) ∧
    (report.error? = none ↔ report.status? = none) ∧
    (report.error? = none ↔ report.isClean = true ∨ FailsSilently p field) ∧
    ((report.isClean = true ↔ report.error? = none) ↔ ¬FailsSilently p field) ∧
    (∀ (q : Population Float) (f : VectorField Float), ¬FailsSilently q f.velocityAt) ∧
    (∀ {σ φ ρ : Type} [Engine σ] (s : Simulation σ φ) (draw : Drawing ρ) (r : ρ) (told : Report),
      (s.tick draw r).1 = some told → (s.tick draw r).2.1.status = told.status?) ∧
    (∀ {φ ρ : Type} (s : Simulation Flow φ) (draw : Drawing ρ) (r : ρ),
      s.status ≠ none → (s.tick draw r).2.1.status = none →
      ∃ flow, s.engine = some flow ∧
        ∀ particle ∈ flow.population.particles,
          Moves flow.field.velocityAt particle.position) := by
  intro report
  refine ⟨isClean_step, Report.status?_eq_none.symm, error?_step_eq_none, ⟨?_, ?_⟩,
    not_failsSilently_velocityAt, ?_, ?_⟩
  · intro hsame hsilent
    apply not_isClean_of_failsSilently hsilent
    exact hsame.mpr (error?_step_eq_none.mpr (.inr hsilent))
  · intro htold
    rw [error?_step_eq_none]
    exact ⟨.inl, fun h => h.resolve_right htold⟩
  · intro σ φ ρ _ s draw r told htick
    rcases s.status_tick draw r with ⟨engine, -, hreport, hstatus⟩ | ⟨hnone, -⟩
    · obtain rfl := Option.some.inj (hreport.symm.trans htick)
      exact hstatus
    · rw [hnone] at htick
      cases htick
  · intro φ ρ s draw r hline hcleared
    rcases s.status_tick draw r with ⟨flow, hflow, -, hstatus⟩ | ⟨-, hstatus⟩
    · refine ⟨flow, hflow, ?_⟩
      have hnone : (flow.population.step flow.field.velocityAt).1.error? = none :=
        Report.status?_eq_none.mp (hstatus.symm.trans hcleared)
      have hclean := (error?_step_eq_none.mp hnone).resolve_right (not_failsSilently_velocityAt _ _)
      exact isClean_step.mp hclean
    · exact absurd (hstatus.symm.trans hcleared) hline

/-- A field that flows to the right, and has no number for a speed on the left. -/
def halfNumber : Field Float := fun p =>
  .ok ⟨if p.x < 0.0 then Binary64.notANumber else 1.0, 0.0⟩

/-- Two of three particles do not move, and nothing is told. -/
theorem two_fail_silently :
    let report := ((ofSeed Bounds.default fewTraced 7).step halfNumber).1
    make Bounds.default fewTraced 7 = .ok (ofSeed Bounds.default fewTraced 7) ∧
      report.successes = 1 ∧ report.failures = 2 ∧ report.isClean = false ∧
      report.error? = none ∧ report.status? = none := by
  have hbounds : (Bounds.default : Bounds Float).isValid = true := by decide +kernel
  have hparams : fewTraced.check = .ok () := rfl
  refine ⟨make_eq_ok hbounds hparams 7, ?_⟩
  decide +kernel

end Population

end PhasePortrait
