import PhasePortrait.Proofs.Draw
import PhasePortrait.Proofs.Setup

/-!
# Runs of a population

Everything that can be done with a population, and a run as a list of it. The field may be another
one in each tick and may fail wherever it likes. Only a tick reaches the live particles: what is done
to traces and bounds leaves their ages and the count of ticks as they are (`Population.Keeps`), so
for the life of one particle a run is the list of its ticks (`Population.steps`), each with the
population that it finds.

What a tick makes of the particle of an index is one of two things (`Population.Settled`): it is
reborn if it is expired and it is its turn, and otherwise it is moved and grows older.
-/

namespace PhasePortrait.Population

variable {α : Type}

/-! ## Between ticks -/

/-- What is left alone between ticks. -/
structure Keeps (p q : Population α) : Prop where
  params : q.params = p.params
  particles : q.particles = p.particles
  tick : q.tick = p.tick

theorem Keeps.refl (p : Population α) : Keeps p p := ⟨rfl, rfl, rfl⟩

theorem Keeps.trans {p q r : Population α} (h : Keeps p q) (k : Keeps q r) : Keeps p r :=
  ⟨k.params.trans h.params, k.particles.trans h.particles, k.tick.trans h.tick⟩

variable [Scalar α]

theorem keeps_setTrace (p : Population α) (enabled : Bool) : Keeps p (p.setTrace enabled) := by
  cases enabled <;> exact ⟨rfl, rfl, rfl⟩

theorem keeps_setBounds {p q : Population α} {bounds : Bounds α} (h : p.setBounds bounds = .ok q) :
    Keeps p q := by
  obtain ⟨_, -, h⟩ := bind_eq_ok.mp h
  obtain rfl := Except.ok.inj h
  dsimp only
  split <;> exact ⟨rfl, rfl, rfl⟩

/-! ## Runs -/

variable [Elementary α]

/-- What can be done with a population. -/
inductive Operation (α : Type) where
  | step (field : Field α)
  | setTrace (enabled : Bool)
  | setBounds (bounds : Bounds α)
  | reseedTraces
  | clearTraces

/-- One operation. Bounds that are refused change nothing. -/
def perform (p : Population α) : Operation α → Population α
  | .step field => (p.step field).2
  | .setTrace enabled => p.setTrace enabled
  | .setBounds bounds =>
    match p.setBounds bounds with
    | .ok moved => moved
    | .error _ => p
  | .reseedTraces => p.reseedTraces
  | .clearTraces => p.clearTraces

/-- A run: operations one after another. -/
def performAll (p : Population α) (ops : List (Operation α)) : Population α := ops.foldl perform p

/-- The ticks of a run, each with the population that it finds. -/
def steps (p : Population α) : List (Operation α) → List (Population α × Field α)
  | [] => []
  | .step field :: ops => (p, field) :: steps (p.perform (.step field)) ops
  | op :: ops => steps (p.perform op) ops

/-- Every operation but a tick leaves the live particles alone. Bounds that are refused leave
everything alone, and others concern traced particles and those that are drawn later. -/
theorem keeps_perform (p : Population α) {op : Operation α} (hop : ∀ field, op ≠ .step field) :
    Keeps p (p.perform op) := by
  cases op with
  | step field => exact absurd rfl (hop field)
  | setTrace enabled => exact keeps_setTrace p enabled
  | setBounds bounds =>
    dsimp only [perform]
    split
    next hmoved => exact keeps_setBounds hmoved
    next => exact .refl p
  | reseedTraces => exact ⟨rfl, rfl, rfl⟩
  | clearTraces => exact ⟨rfl, rfl, rfl⟩

/-- Ticks one after another, with nothing between them that a live particle would notice. -/
inductive Chain : Population α → List (Population α × Field α) → Prop where
  | nil {p} : Chain p []
  | cons {p q field rest} (hkeeps : Keeps p q) (hrest : Chain (q.step field).2 rest) :
    Chain p ((q, field) :: rest)

/-- What is left alone between ticks may come before a chain of ticks as well. -/
theorem Chain.of_keeps {p q : Population α} {ticks : List (Population α × Field α)}
    (h : Chain q ticks) (hkeeps : Keeps p q) : Chain p ticks := by
  cases h with
  | nil => exact .nil
  | cons hnext hrest => exact .cons (hkeeps.trans hnext) hrest

/-- The ticks of a run are a chain: whatever stands between two of them is not noticed. -/
theorem steps_chain (p : Population α) (ops : List (Operation α)) : Chain p (p.steps ops) := by
  fun_induction steps p ops with
  | case1 => exact .nil
  | case2 p field ops ih => exact .cons (.refl p) ih
  | case3 p op ops hop ih => exact ih.of_keeps (keeps_perform p fun field h => hop field h)

/-- A population counts the ticks of its run. The induction is on the ticks that are taken out of
it, so the operations between them are one case. -/
theorem tick_performAll (p : Population α) (ops : List (Operation α)) :
    (p.performAll ops).tick = p.tick + (p.steps ops).length := by
  fun_induction steps p ops with
  | case1 => rfl
  | case2 p field ops ih =>
    change ((p.perform (.step field)).performAll ops).tick = _
    have htick : (p.perform (.step field)).tick = p.tick + 1 := rfl
    rw [ih, htick, List.length_cons]
    omega
  | case3 p op ops hop ih =>
    change ((p.perform op).performAll ops).tick = _
    rw [ih, (keeps_perform p fun field h => hop field h).tick]

/-- What holds of some ticks and a population after them, and is kept by one more tick and between
ticks, holds of the ticks of a run and the population after it. -/
theorem history_induction {P : List (Population α × Field α) → Population α → Prop}
    (hkeeps : ∀ {ticks p q}, Keeps p q → P ticks p → P ticks q)
    (hstep : ∀ {ticks p} field, P ticks p → P (ticks ++ [(p, field)]) (p.step field).2)
    (ticks : List (Population α × Field α)) {p : Population α} (ops : List (Operation α))
    (h : P ticks p) : P (ticks ++ p.steps ops) (p.performAll ops) := by
  induction ops generalizing ticks p with
  | nil =>
    rw [steps, List.append_nil]
    exact h
  | cons op ops ih =>
    cases op with
    | step field =>
      have hlast := ih (ticks ++ [(p, field)]) (hstep field h)
      rw [List.append_assoc] at hlast
      exact hlast
    | setTrace | setBounds | reseedTraces | clearTraces =>
      exact ih ticks (hkeeps (keeps_perform p nofun) h)

/-- What holds of a population and is kept by ticks and between them holds after a run. -/
theorem performAll_induction {P : Population α → Prop}
    (hkeeps : ∀ {p q}, Keeps p q → P p → P q) (hstep : ∀ {p} field, P p → P (p.step field).2)
    {p : Population α} (ops : List (Operation α)) (h : P p) : P (p.performAll ops) :=
  history_induction (P := fun _ => P) hkeeps hstep [] ops h

/-! ## One tick of one particle -/

/-- Whether a particle is expired once it is moved and older. -/
def expires (p : Population α) (field : Field α) (particle : Particle α) : Bool :=
  (p.advance field particle).particle.expired (p.advance field particle).alpha p.params

/-- What becomes of the particle of an index in a tick. -/
inductive Settled (p : Population α) (field : Field α) (i : Nat) (particle : Particle α) :
    Particle α → Prop where
  /-- It is expired and it is its turn. -/
  | reborn (hturn : p.isTurn i = true) (hexpires : p.expires field particle = true) (g : Generator) :
    Settled p field i particle (Particle.reborn p.bounds p.params g).1
  | kept (h : p.isTurn i = true → p.expires field particle = false) :
    Settled p field i particle (p.advance field particle).particle

/-- The two things that may become of a particle, by the test that decides between them. -/
theorem settled_settle (p : Population α) (field : Field α) (i : Nat) (particle : Particle α)
    (g : Generator) : Settled p field i particle (p.settle i (p.advance field particle) g).1 := by
  unfold settle
  split
  next h =>
    obtain ⟨hexpires, hturn⟩ := Bool.and_eq_true_iff.mp h
    exact .reborn hturn hexpires g
  next h =>
    refine .kept fun hturn => ?_
    rw [hturn, Bool.and_true] at h
    exact Bool.eq_false_iff.mpr h

/-- **What a tick does to one particle.** -/
theorem step_settled {p : Population α} {i : Nat} {particle : Particle α}
    (h : p.particles[i]? = some particle) (field : Field α) :
    ∃ next, (p.step field).2.particles[i]? = some next ∧ Settled p field i particle next := by
  have hitem : ((p.particles.map (p.advance field)).zipIdx)[i]? =
      some (p.advance field particle, i) := by
    rw [List.getElem?_zipIdx, List.getElem?_map, h]
    simp
  obtain ⟨g, hg⟩ :=
    Draw.getElem?_mapM (fun m => p.settle m.2 m.1) hitem p.generator
  exact ⟨_, hg, settled_settle p field i particle g⟩

theorem length_step (p : Population α) (field : Field α) :
    (p.step field).2.particles.length = p.particles.length := by
  change ((p.particles.map (p.advance field)).zipIdx.mapM
    (fun m => p.settle m.2 m.1) p.generator).1.length = _
  rw [Draw.length_mapM, List.length_zipIdx, List.length_map]

/-- Every particle after a tick comes of the one that had its index. -/
theorem settled_of_step {p : Population α} {field : Field α} {i : Nat} {next : Particle α}
    (hnext : (p.step field).2.particles[i]? = some next) :
    ∃ particle, p.particles[i]? = some particle ∧ Settled p field i particle next := by
  have hi : i < p.particles.length := by
    rw [← length_step p field]
    exact (List.getElem?_eq_some_iff.mp hnext).1
  have hparticle := List.getElem?_eq_getElem hi
  obtain ⟨settled, heq, hsettled⟩ := step_settled hparticle field
  obtain rfl := Option.some.inj (hnext.symm.trans heq)
  exact ⟨_, hparticle, hsettled⟩

end PhasePortrait.Population
