import PhasePortrait.Proofs.Particle.Invariant

/-!
# Live and traced particles keep apart

Live and traced particles are moved in the same tick, by the same field and with the same
parameters, and neither sees the other. A tick draws only for live particles that are reborn, and it
reports and shows only live ones; where a traced particle goes is decided by the field at the place
where it is.

**The law** is about two populations side by side. If they differ only in their traces, they report
the same in every tick and go on to differ only in their traces (`LiveAlike.performAll`); if they
have the same traced particles, they go on to have the same, however unlike the rest of them is
(`TracedAlike.performAll`).

**What it does not cover.** Seeding draws from the generator that rebirths draw from. So whatever
seeds traced particles shows in the live ones later on, and is left out here.
-/

namespace PhasePortrait.Population

variable {α : Type}

/-- Equal in everything but the traces. -/
structure LiveAlike (p q : Population α) : Prop where
  params : p.params = q.params
  bounds : p.bounds = q.bounds
  generator : p.generator = q.generator
  particles : p.particles = q.particles
  samples : p.samples = q.samples
  tick : p.tick = q.tick

/-- Equal in the traces and in what they depend on. -/
structure TracedAlike (p q : Population α) : Prop where
  params : p.params = q.params
  traceEnabled : p.traceEnabled = q.traceEnabled
  traced : p.traced = q.traced

/-- Whether an operation seeds no traced particles. -/
def Operation.isQuiet : Operation α → Bool
  | .step _ | .clearTraces => true
  | .setTrace _ | .setBounds _ | .reseedTraces => false

variable {p q : Population α}

theorem LiveAlike.clearTraces (h : LiveAlike p q) : LiveAlike p.clearTraces q.clearTraces :=
  ⟨h.params, h.bounds, h.generator, h.particles, h.samples, h.tick⟩

theorem TracedAlike.clearTraces (h : TracedAlike p q) :
    TracedAlike p.clearTraces q.clearTraces where
  params := h.params
  traceEnabled := h.traceEnabled
  traced := congrArg (List.map Traced.forget) h.traced

variable [Scalar α]

/-- Being due and having one's turn depend on parameters, bounds and the count of ticks. -/
theorem LiveAlike.settle_eq (h : LiveAlike p q) (i : Nat) (m : Advanced α) :
    p.settle i m = q.settle i m := by
  unfold settle isTurn
  rw [h.params, h.bounds, h.tick]

variable [Elementary α]

theorem LiveAlike.advance_eq (h : LiveAlike p q) (field : Field α) :
    p.advance field = q.advance field := by
  funext particle
  unfold advance
  rw [h.params, h.bounds]

/-- **A tick of two populations that differ in their traces** tells the same, and leaves them so.
Live particles draw from the generator in a tick and traced ones do not, so the generators stay
equal. -/
theorem LiveAlike.step (h : LiveAlike p q) (field : Field α) :
    (p.step field).1 = (q.step field).1 ∧ LiveAlike (p.step field).2 (q.step field).2 := by
  have hadvanced : p.particles.map (p.advance field) = q.particles.map (q.advance field) := by
    rw [h.particles, h.advance_eq]
  have hsettle : (fun m : Advanced α × Nat => p.settle m.2 m.1) = fun m => q.settle m.2 m.1 := by
    funext m
    exact h.settle_eq m.2 m.1
  have hdrawn : ((p.particles.map (p.advance field)).zipIdx.mapM fun m => p.settle m.2 m.1)
      p.generator =
        ((q.particles.map (q.advance field)).zipIdx.mapM fun m => q.settle m.2 m.1)
          q.generator := by
    rw [hadvanced, hsettle, h.generator]
  refine ⟨?_, {
    params := h.params
    bounds := h.bounds
    generator := congrArg Prod.snd hdrawn
    particles := congrArg Prod.fst hdrawn
    samples := congrArg (List.filterMap Advanced.sample?) hadvanced
    tick := congrArg (· + 1) h.tick }⟩
  show (p.particles.map (p.advance field)).foldl (fun r m => r.record m.answer) Report.empty = _
  rw [hadvanced]
  rfl

/-- **A tick of two populations with the same traced particles** leaves them the same. -/
theorem TracedAlike.step (h : TracedAlike p q) (field : Field α) :
    TracedAlike (p.step field).2 (q.step field).2 where
  params := h.params
  traceEnabled := h.traceEnabled
  traced := by
    show (if p.traceEnabled then p.traced.map fun t => t.advance field p.params else p.traced) =
      if q.traceEnabled then q.traced.map fun t => t.advance field q.params else q.traced
    rw [h.traceEnabled, h.traced, h.params]

/-! ## Runs -/

/-- What the ticks of a run report. -/
def reports (p : Population α) (ops : List (Operation α)) : List Report :=
  (p.steps ops).map fun found => (found.1.step found.2).1

theorem LiveAlike.performAll (h : LiveAlike p q) {ops : List (Operation α)}
    (hquiet : ∀ op ∈ ops, op.isQuiet = true) :
    p.reports ops = q.reports ops ∧ LiveAlike (p.performAll ops) (q.performAll ops) := by
  induction ops generalizing p q with
  | nil => exact ⟨rfl, h⟩
  | cons op ops ih =>
    obtain ⟨hop, hlater⟩ := List.forall_mem_cons.mp hquiet
    cases op with
    | step field =>
      obtain ⟨hreport, hnext⟩ := h.step field
      obtain ⟨hreports, hlast⟩ := ih hnext hlater
      exact ⟨List.cons_eq_cons.mpr ⟨hreport, hreports⟩, hlast⟩
    | clearTraces => exact ih h.clearTraces hlater
    | setTrace | setBounds | reseedTraces => cases hop

theorem TracedAlike.performAll (h : TracedAlike p q) {ops : List (Operation α)}
    (hquiet : ∀ op ∈ ops, op.isQuiet = true) :
    TracedAlike (p.performAll ops) (q.performAll ops) := by
  induction ops generalizing p q with
  | nil => exact h
  | cons op ops ih =>
    obtain ⟨hop, hlater⟩ := List.forall_mem_cons.mp hquiet
    cases op with
    | step field => exact ih (h.step field) hlater
    | clearTraces => exact ih h.clearTraces hlater
    | setTrace | setBounds | reseedTraces => cases hop

/-- **Live and traced particles do not interfere.** Two populations go through the same ticks and
clearings of traces, in any fields. If they are equal but for their traces, every tick of both
reports the same and they end up equal but for their traces; if they have the same traced particles,
they end up with the same, whatever their live particles, bounds and generators were. -/
theorem live_and_traced_keep_apart (p q : Population α) {ops : List (Operation α)}
    (hquiet : ∀ op ∈ ops, op.isQuiet = true) :
    (LiveAlike p q →
      p.reports ops = q.reports ops ∧ LiveAlike (p.performAll ops) (q.performAll ops)) ∧
    (TracedAlike p q → TracedAlike (p.performAll ops) (q.performAll ops)) :=
  ⟨fun h => h.performAll hquiet, fun h => h.performAll hquiet⟩

/-- Three live particles, with a traced one that was never seeded. -/
def oneTraced : Population Float :=
  { ofSeed Bounds.default fewTraced 7 with traceEnabled := true, traced := [.start ⟨1.0, 2.0⟩] }

/-- A field that turns about the origin, and has no value left of it. -/
def halfTurn : Field Float := fun p =>
  if p.x < 0.0 then .error .noParticle else .ok ⟨-p.y, p.x⟩

/-- A traced particle goes its way beside three live ones and alone, and they go theirs with it and
without it. -/
theorem keep_apart_of_oneTraced :
    let ops : List (Operation Float) := [.step halfTurn, .clearTraces, .step halfTurn]
    let untraced := ofSeed Bounds.default fewTraced 7
    let alone := { oneTraced with particles := [], generator := .ofSeed 8 }
    (∀ op ∈ ops, op.isQuiet = true) ∧
      LiveAlike untraced oneTraced ∧ untraced.traced.length ≠ oneTraced.traced.length ∧
      untraced.reports ops = oneTraced.reports ops ∧
      (untraced.performAll ops).particles = (oneTraced.performAll ops).particles ∧
      TracedAlike alone oneTraced ∧ alone.particles.length ≠ oneTraced.particles.length ∧
      (alone.performAll ops).traced = (oneTraced.performAll ops).traced := by
  intro ops untraced alone
  have hquiet : ∀ op ∈ ops, op.isQuiet = true := by simp [ops, Operation.isQuiet]
  have hlive : LiveAlike untraced oneTraced := ⟨rfl, rfl, rfl, rfl, rfl, rfl⟩
  have htraced : TracedAlike alone oneTraced := ⟨rfl, rfl, rfl⟩
  obtain ⟨hreports, hlast⟩ := (live_and_traced_keep_apart untraced oneTraced hquiet).1 hlive
  have hbounds : (Bounds.default : Bounds Float).isValid = true := by decide +kernel
  have hseeded : Sound fewTraced false (ofSeed Bounds.default fewTraced 7) := sound_ofSeed hbounds 7
  have hlength : oneTraced.particles.length = 3 := hseeded.length_eq
  refine ⟨hquiet, hlive, nofun, hreports, hlast.particles, htraced, ?_, ?_⟩
  · rw [hlength]
    nofun
  · exact ((live_and_traced_keep_apart alone oneTraced hquiet).2 htraced).traced

end PhasePortrait.Population
