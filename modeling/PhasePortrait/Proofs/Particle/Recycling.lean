import Mathlib.Data.Nat.ModEq
import PhasePortrait.Proofs.Particle.Run

/-!
# Staggered recycling

A particle may be reborn only in the ticks that its index falls to, one in each stride. So it may
live longer than its years, until its turn comes, and how much longer is the whole of the matter:
the ticks that it still has to **wait** (`Population.wait`) and its age together never exceed its
years by a stride or more.

Everything here follows from what one tick does to one particle and to its wait: a wait counts down
to zero, and then starts again from the stride.
-/

namespace PhasePortrait

/-! ## Turns -/

/-- The ticks from a tick to the next turn of an index. -/
def untilTurn (stride index tick : Nat) : Nat := (index + (stride - 1) * tick) % stride

/-- A wait is shorter than a stride: in every stride each index has its turn. -/
theorem untilTurn_lt {stride : Nat} (hstride : 0 < stride) (index tick : Nat) :
    untilTurn stride index tick < stride :=
  Nat.mod_lt _ hstride

/-- It is the turn of an index in those ticks that leave the same remainder. This is how the turn is
told; the wait is what can be counted. -/
theorem untilTurn_eq_zero {stride : Nat} (hstride : 0 < stride) {index tick : Nat} :
    untilTurn stride index tick = 0 ↔ index % stride = tick % stride := by
  have htotal : index + (stride - 1) * tick + tick = index + stride * tick := by
    obtain ⟨n, rfl⟩ := Nat.exists_eq_add_of_lt hstride
    simp only [Nat.zero_add, Nat.add_sub_cancel, Nat.add_mul, Nat.one_mul, Nat.add_assoc]
  have hmod : index + stride * tick ≡ index [MOD stride] := by
    simp [Nat.ModEq]
  constructor
  · intro hzero
    have hturn : index + (stride - 1) * tick + tick ≡ 0 + tick [MOD stride] :=
      Nat.ModEq.add_right tick (hzero.trans (Nat.zero_mod _).symm)
    rw [htotal, Nat.zero_add] at hturn
    exact hmod.symm.trans hturn
  · intro hturn
    have hsum : index + (stride - 1) * tick + tick ≡ 0 + tick [MOD stride] := by
      rw [htotal, Nat.zero_add]
      exact hmod.trans hturn
    exact Eq.trans (Nat.ModEq.add_right_cancel' tick hsum) (Nat.zero_mod _)

/-- A wait counts down, and starts again after a turn. The next tick is one later, so the remainder
is one less, or goes around once. -/
theorem untilTurn_succ {stride : Nat} (hstride : 0 < stride) (index tick : Nat) :
    untilTurn stride index (tick + 1) =
      if untilTurn stride index tick = 0 then stride - 1 else untilTurn stride index tick - 1 := by
  have hlt := untilTurn_lt hstride index tick
  have hnext : untilTurn stride index (tick + 1) =
      (untilTurn stride index tick + (stride - 1)) % stride := by
    unfold untilTurn
    rw [Nat.mod_add_mod, Nat.mul_add, Nat.mul_one, Nat.add_assoc]
  rw [hnext]
  split
  next hzero => rw [hzero, Nat.zero_add, Nat.mod_eq_of_lt (by omega)]
  next hpos =>
    have hwrap : untilTurn stride index tick + (stride - 1) =
        (untilTurn stride index tick - 1) + stride := by omega
    rw [hwrap, Nat.add_mod_right, Nat.mod_eq_of_lt (by omega)]

/-! ## Counters -/

/-- A counter that has counted a tick is not at zero, so a particle that was not reborn in a tick
does not look as if it had been. -/
theorem countTick_pos (n : Nat) : 0 < countTick n := by
  unfold countTick counterLimit
  split <;> simp [UInt32.size]

theorem countTick_le (n : Nat) : countTick n ≤ n + 1 := by
  unfold countTick
  split <;> omega

/-- Below the largest value a counter goes on counting. -/
theorem lt_countTick {limit n : Nat} (hlimit : limit < counterLimit) (hn : limit ≤ n) :
    limit < countTick n := by
  unfold countTick
  split <;> omega

/-- Below a limit that counters can hold, a counter counts exactly one for a tick. -/
theorem countTick_eq {limit n : Nat} (hlimit : limit < counterLimit) (hn : n < limit) :
    countTick n = n + 1 := by
  unfold countTick
  split <;> omega

namespace Population

variable {α : Type}

/-! ## One particle -/

/-- The ticks that the particle of an index has to wait for its turn. -/
def wait (p : Population α) (i : Nat) : Nat := untilTurn p.params.recycleStride i p.tick

/-- A wait is told by the tick and the stride, and what is done between two ticks changes
neither. -/
theorem Keeps.wait {p q : Population α} (h : Keeps p q) (i : Nat) : q.wait i = p.wait i := by
  simp only [Population.wait, h.params, h.tick]

/-- Nor does it change how many particles there are, so an index stays one of a particle. -/
theorem Keeps.lt_length {p q : Population α} (h : Keeps p q) {i : Nat}
    (hi : i < p.particles.length) : i < q.particles.length := by
  rwa [h.particles]

/-- It is the turn of an index when it has nothing left to wait for. -/
theorem isTurn_iff {p : Population α} (hstride : 0 < p.params.recycleStride) {i : Nat} :
    p.isTurn i = true ↔ p.wait i = 0 := by
  rw [wait, untilTurn_eq_zero hstride, isTurn, beq_iff_eq]

/-- **The invariant.** No age and wait together exceed the years by a stride or more. -/
structure Staggered (params : Params α) (p : Population α) : Prop where
  params_eq : p.params = params
  length_eq : p.particles.length = params.particleCount
  age_add_wait : ∀ {i particle}, p.particles[i]? = some particle →
    particle.age + p.wait i ≤ params.maxAge + (params.recycleStride - 1)

/-- The invariant is about ages, waits and parameters, so what keeps these keeps it. -/
theorem Staggered.of_keeps {params : Params α} {p q : Population α} (h : Staggered params p)
    (hkeeps : Keeps p q) : Staggered params q where
  params_eq := hkeeps.params.trans h.params_eq
  length_eq := by rw [hkeeps.particles, h.length_eq]
  age_add_wait hparticle := by
    rw [hkeeps.wait]
    exact h.age_add_wait (by rwa [hkeeps.particles] at hparticle)

/-- A population starts with no particle past its years. -/
theorem staggered_of_make [Scalar α] {bounds : Bounds α} {params : Params α} {seed : UInt64}
    {start : Population α} (h : make bounds params seed = .ok start)
    (hstride : 0 < params.recycleStride) : Staggered params start := by
  obtain ⟨-, rfl⟩ := eq_of_make h
  refine ⟨rfl, Draw.length_times _ _ _, fun {i particle} hparticle => ?_⟩
  obtain ⟨g, rfl⟩ := Draw.exists_of_mem_times (List.mem_of_getElem? hparticle)
  have hage := Particle.age_spawn_le bounds params g
  have hwait := untilTurn_lt hstride i 0
  change _ + untilTurn params.recycleStride i 0 ≤ _
  omega

variable [Scalar α] [Elementary α]

/-- Whether the particle of an index is expired in a tick, once it is moved and older. -/
def isDue (p : Population α) (field : Field α) (i : Nat) : Bool :=
  p.particles[i]?.any (p.expires field)

/-- Whether the particle of an index is reborn in a tick: afterwards it is of age zero. -/
def isRenewed (p : Population α) (field : Field α) (i : Nat) : Bool :=
  (p.step field).2.particles[i]?.any fun particle => particle.age == 0

/-- How often the particle of an index is reborn in some ticks. -/
def renewals (ticks : List (Population α × Field α)) (i : Nat) : Nat :=
  ticks.countP fun tick => tick.1.isRenewed tick.2 i

/-- Rebirths are counted tick by tick, which is how the inductions over ticks go. -/
theorem renewals_cons (p : Population α) (field : Field α)
    (ticks : List (Population α × Field α)) (i : Nat) :
    renewals ((p, field) :: ticks) i =
      renewals ticks i + if p.isRenewed field i = true then 1 else 0 :=
  List.countP_cons

/-- After a turn the wait is all of a stride but the tick that was taken. -/
theorem wait_after_turn {p : Population α} (hstride : 0 < p.params.recycleStride) {i : Nat}
    (hturn : p.wait i = 0) (field : Field α) :
    (p.step field).2.wait i = p.params.recycleStride - 1 :=
  (untilTurn_succ hstride i p.tick).trans (if_pos hturn)

/-- A wait that is not over is one tick shorter after the next one. -/
theorem wait_before_turn {p : Population α} (hstride : 0 < p.params.recycleStride) {i : Nat}
    (hwait : p.wait i ≠ 0) (field : Field α) : (p.step field).2.wait i = p.wait i - 1 :=
  (untilTurn_succ hstride i p.tick).trans (if_neg hwait)

/-- Every tick makes a particle older before anything is decided about it. -/
theorem age_advance (p : Population α) (field : Field α) (particle : Particle α) :
    (p.advance field particle).particle.age = countTick particle.age := rfl

/-- **A particle is reborn in its turn, if it is expired.** That it was reborn is seen from its age
alone: a tick leaves an age above zero on all others. -/
theorem isRenewed_eq {p : Population α} {i : Nat} (hi : i < p.particles.length)
    (field : Field α) : p.isRenewed field i = (p.isTurn i && p.isDue field i) := by
  have hparticle := List.getElem?_eq_getElem hi
  obtain ⟨next, hnext, hsettled⟩ := step_settled hparticle field
  unfold isRenewed isDue
  rw [hnext, hparticle, Option.any_some, Option.any_some]
  cases hsettled with
  | reborn hturn hexpires g => simp [hturn, hexpires, Particle.age_reborn]
  | kept h =>
    have hage := countTick_pos p.particles[i].age
    cases hturn : p.isTurn i with
    | false => simp [age_advance, Nat.pos_iff_ne_zero.mp hage]
    | true => simp [age_advance, Nat.pos_iff_ne_zero.mp hage, h hturn]

theorem isRenewed_of_wait {p : Population α} (hstride : 0 < p.params.recycleStride) {i : Nat}
    (hi : i < p.particles.length) (hwait : p.wait i ≠ 0) (field : Field α) :
    p.isRenewed field i = false := by
  have hturn : p.isTurn i = false := by
    rw [Bool.eq_false_iff, ne_eq, isTurn_iff hstride]
    exact hwait
  rw [isRenewed_eq hi, hturn, Bool.false_and]

theorem isRenewed_of_due {p : Population α} (hstride : 0 < p.params.recycleStride) {i : Nat}
    (hi : i < p.particles.length) (hturn : p.wait i = 0) {field : Field α}
    (hdue : p.isDue field i = true) : p.isRenewed field i = true := by
  rw [isRenewed_eq hi, (isTurn_iff hstride).mpr hturn, hdue, Bool.true_and]

/-! ## One particle over many ticks -/

section Ticks

variable {p : Population α} {ticks : List (Population α × Field α)} {i : Nat}

/-- Before its turn a particle is not reborn. Each tick takes one off the wait, and the ticks are no
more than the wait. -/
theorem renewals_eq_zero (h : Chain p ticks) (hstride : 0 < p.params.recycleStride)
    (hi : i < p.particles.length) (hlength : ticks.length ≤ p.wait i) : renewals ticks i = 0 := by
  induction h with
  | nil => rfl
  | @cons p q field rest hkeeps hrest ih =>
    rw [← hkeeps.params] at hstride
    rw [← hkeeps.wait, List.length_cons] at hlength
    have hi := hkeeps.lt_length hi
    have hwait : q.wait i ≠ 0 := by omega
    have hnext := wait_before_turn hstride hwait field
    rw [renewals_cons, isRenewed_of_wait hstride hi hwait,
      ih hstride (by rwa [length_step]) (by omega)]
    rfl

/-- In a stride, and while waiting for it, a particle is reborn at most once. The ticks before its
turn do not count, and behind the turn there are fewer than a stride. -/
theorem renewals_le_one (h : Chain p ticks) (hstride : 0 < p.params.recycleStride)
    (hi : i < p.particles.length)
    (hlength : ticks.length ≤ p.wait i + p.params.recycleStride) : renewals ticks i ≤ 1 := by
  induction h with
  | nil => exact Nat.zero_le _
  | @cons p q field rest hkeeps hrest ih =>
    rw [← hkeeps.params] at hstride hlength
    rw [← hkeeps.wait, List.length_cons] at hlength
    have hi := hkeeps.lt_length hi
    have hinext : i < (q.step field).2.particles.length := by rwa [length_step]
    rw [renewals_cons]
    by_cases hwait : q.wait i = 0
    · -- The turn has come, and the next one is a stride away.
      have hnext := wait_after_turn hstride hwait field
      have hrenewals := renewals_eq_zero hrest hstride hinext (by omega)
      split <;> omega
    · have hnext := wait_before_turn hstride hwait field
      have hlength : rest.length ≤ (q.step field).2.wait i + q.params.recycleStride := by omega
      rw [isRenewed_of_wait hstride hi hwait]
      exact ih hstride hinext hlength

/-- A particle that stays expired is reborn in its turn. The induction is on the ticks of the run,
and the wait gets shorter by each of them. -/
theorem one_le_renewals_of_due (h : Chain p ticks) (hstride : 0 < p.params.recycleStride)
    (hi : i < p.particles.length) (hdue : ∀ tick ∈ ticks, tick.1.isDue tick.2 i = true)
    (hlength : p.wait i < ticks.length) : 1 ≤ renewals ticks i := by
  induction h with
  | nil => cases hlength
  | @cons p q field rest hkeeps hrest ih =>
    rw [← hkeeps.params] at hstride
    rw [← hkeeps.wait, List.length_cons] at hlength
    have hi := hkeeps.lt_length hi
    rw [renewals_cons]
    by_cases hwait : q.wait i = 0
    · rw [isRenewed_of_due hstride hi hwait (hdue _ List.mem_cons_self)]
      exact Nat.le_add_left _ _
    · have hnext := wait_before_turn hstride hwait field
      have hrenewals := ih hstride (by rwa [length_step])
        (fun tick htick => hdue tick (List.mem_cons_of_mem _ htick)) (by omega)
      exact Nat.le_add_right_of_le hrenewals

/-- A particle past its years is reborn in its turn, unless a counter cannot tell its age. It only
grows older while it waits, so it is still past its years when its turn comes. -/
theorem one_le_renewals_of_old (h : Chain p ticks) {particle : Particle α}
    (hstride : 0 < p.params.recycleStride) (hlimit : p.params.maxAge < counterLimit)
    (hparticle : p.particles[i]? = some particle) (hold : p.params.maxAge ≤ particle.age)
    (hlength : p.wait i < ticks.length) : 1 ≤ renewals ticks i := by
  induction h generalizing particle with
  | nil => cases hlength
  | @cons p q field rest hkeeps hrest ih =>
    rw [← hkeeps.params] at hstride hlimit hold
    rw [← hkeeps.particles] at hparticle
    rw [← hkeeps.wait, List.length_cons] at hlength
    have hi := (List.getElem?_eq_some_iff.mp hparticle).1
    have hage := lt_countTick hlimit hold
    rw [renewals_cons]
    by_cases hwait : q.wait i = 0
    · have hdue : q.isDue field i = true := by
        simp [isDue, hparticle, expires, Particle.expired, age_advance, hage]
      rw [isRenewed_of_due hstride hi hwait hdue]
      exact Nat.le_add_left _ _
    · have hnextWait := wait_before_turn hstride hwait field
      obtain ⟨next, hnext, hsettled⟩ := step_settled hparticle field
      cases hsettled with
      | reborn hturn => exact absurd ((isTurn_iff hstride).mp hturn) hwait
      | kept =>
        have hrenewals := ih hstride hlimit hnext (Nat.le_of_lt hage) (by omega)
        exact Nat.le_add_right_of_le hrenewals

/-- A particle reaches its years, and then waits for less than a stride. Should it be reborn before,
there is nothing left to show. -/
theorem one_le_renewals_of_long (h : Chain p ticks) {particle : Particle α}
    (hstride : 0 < p.params.recycleStride) (hlimit : p.params.maxAge < counterLimit)
    (hparticle : p.particles[i]? = some particle)
    (hlength : p.params.maxAge - particle.age + p.params.recycleStride ≤ ticks.length) :
    1 ≤ renewals ticks i := by
  induction h generalizing particle with
  | nil =>
    rw [List.length_nil] at hlength
    omega
  | @cons p q field rest hkeeps hrest ih =>
    by_cases hold : p.params.maxAge ≤ particle.age
    · have hwait := untilTurn_lt hstride i p.tick
      exact one_le_renewals_of_old (.cons hkeeps hrest) hstride hlimit hparticle hold
        (by unfold wait; omega)
    · have hyoung : particle.age < p.params.maxAge := Nat.lt_of_not_le hold
      rw [← hkeeps.params] at hstride hlimit hlength hyoung
      rw [← hkeeps.particles] at hparticle
      rw [List.length_cons] at hlength
      have hi := (List.getElem?_eq_some_iff.mp hparticle).1
      rw [renewals_cons]
      cases hrenewed : q.isRenewed field i with
      | true => exact Nat.le_add_left _ _
      | false =>
        obtain ⟨next, hnext, hsettled⟩ := step_settled hparticle field
        have hage : next.age = particle.age + 1 := by
          cases hsettled with
          | reborn hturn hexpires g =>
            simp [isRenewed, hnext, Particle.age_reborn] at hrenewed
          | kept => exact countTick_eq hlimit hyoung
        have hlong : q.params.maxAge - next.age + q.params.recycleStride ≤ rest.length := by
          rw [hage]
          omega
        exact Nat.le_add_right_of_le (ih hstride hlimit hnext hlong)

end Ticks

/-! ## Ages -/

/-- The step of the invariant. Before its turn a particle grows older by one while its wait grows
shorter by one. In its turn it is reborn or within its years, and the wait that begins then is
shorter than a stride. -/
theorem Staggered.step {params : Params α} {p : Population α} (h : Staggered params p)
    (hstride : 0 < params.recycleStride) (field : Field α) : Staggered params (p.step field).2 where
  params_eq := h.params_eq
  length_eq := (length_step p field).trans h.length_eq
  age_add_wait {i next} hnext := by
    obtain ⟨particle, hparticle, hsettled⟩ := settled_of_step hnext
    have hpstride : 0 < p.params.recycleStride := by rwa [h.params_eq]
    have hage := h.age_add_wait hparticle
    cases hsettled with
    | reborn hturn hexpires g =>
      rw [wait_after_turn hpstride ((isTurn_iff hpstride).mp hturn), Particle.age_reborn,
        h.params_eq]
      omega
    | kept hkept =>
      have hcount := countTick_le particle.age
      rw [age_advance]
      by_cases hturn : p.wait i = 0
      · -- In its turn only a particle within its years goes on.
        have hyears := hkept ((isTurn_iff hpstride).mpr hturn)
        simp only [expires, Particle.expired, Bool.or_eq_false_iff, decide_eq_false_iff_not,
          age_advance, h.params_eq] at hyears
        rw [wait_after_turn hpstride hturn, h.params_eq]
        omega
      · rw [wait_before_turn hpstride hturn]
        omega

/-- The invariant holds after every run, by induction on its operations. -/
theorem staggered_reached {bounds : Bounds α} {params : Params α} {seed : UInt64}
    {start : Population α} (hmade : make bounds params seed = .ok start)
    (ops : List (Operation α)) : Staggered params (start.performAll ops) := by
  have hstride := Params.stride_pos_of_check (eq_of_make hmade).1
  exact performAll_induction (fun hkeeps h => h.of_keeps hkeeps)
    (fun field h => h.step hstride field) ops (staggered_of_make hmade hstride)

/-- **Recycling is staggered.** Whatever is done with a population, and whatever the fields answer:
the particle of an index is reborn in the ticks that the index falls to, if it is expired then, and
otherwise it is moved and grows older. So it is reborn at most once in a stride, and once if it is
expired all along; it never grows older than its years by a stride; and, unless its years are more
than a counter can tell, it is reborn at least once in its years and a stride. -/
theorem recycling_is_staggered {bounds : Bounds α} {params : Params α} {seed : UInt64}
    {start : Population α} (hmade : make bounds params seed = .ok start) {i : Nat}
    (hi : i < params.particleCount) (before window : List (Operation α)) :
    let p := start.performAll before
    let stride := params.recycleStride
    let ticks := p.steps window
    p.tick = (start.steps before).length ∧
    (∀ field,
      (p.isRenewed field i = true ↔ p.tick % stride = i % stride ∧ p.isDue field i = true) ∧
      ∃ particle next, p.particles[i]? = some particle ∧
        (p.step field).2.particles[i]? = some next ∧
        if p.isRenewed field i = true then ∃ g, next = (Particle.reborn p.bounds params g).1
        else next = (p.advance field particle).particle) ∧
    (ticks.length ≤ stride → renewals ticks i ≤ 1) ∧
    (ticks.length = stride → (∀ tick ∈ ticks, tick.1.isDue tick.2 i = true) →
      renewals ticks i = 1) ∧
    (∃ particle, p.particles[i]? = some particle ∧ particle.age ≤ params.maxAge + stride - 1) ∧
    (params.maxAge < counterLimit → params.maxAge + stride ≤ ticks.length →
      1 ≤ renewals ticks i) := by
  intro p stride ticks
  have hp : Staggered params p := staggered_reached hmade before
  have hchain : Chain p ticks := steps_chain p window
  have hstride : 0 < p.params.recycleStride := by
    rw [hp.params_eq]
    exact Params.stride_pos_of_check (eq_of_make hmade).1
  have hpstride : p.params.recycleStride = stride := by rw [hp.params_eq]
  have hlength : i < p.particles.length := by rwa [hp.length_eq]
  have hparticle := List.getElem?_eq_getElem hlength
  have hwait : p.wait i < stride := hpstride ▸ untilTurn_lt hstride i p.tick
  have hmost : ticks.length ≤ stride → renewals ticks i ≤ 1 := fun hticks =>
    renewals_le_one hchain hstride hlength (by omega)
  refine ⟨?_, fun field => ⟨?_, ?_⟩, hmost, fun hticks hdue => ?_, ⟨_, hparticle, ?_⟩,
    fun hlimit hticks => ?_⟩
  · obtain ⟨-, rfl⟩ := eq_of_make hmade
    exact (tick_performAll _ before).trans (Nat.zero_add _)
  · rw [isRenewed_eq hlength, Bool.and_eq_true, isTurn, beq_iff_eq, hpstride, eq_comm]
  · obtain ⟨next, hnext, hsettled⟩ := step_settled hparticle field
    refine ⟨_, next, hparticle, hnext, ?_⟩
    rw [isRenewed_eq hlength, isDue, hparticle, Option.any_some]
    cases hsettled with
    | reborn hturn hexpires g =>
      rw [hturn, hexpires, ← hp.params_eq]
      exact ⟨g, rfl⟩
    | kept h =>
      rw [if_neg]
      intro hboth
      obtain ⟨hturn, hexpires⟩ := Bool.and_eq_true_iff.mp hboth
      rw [h hturn] at hexpires
      cases hexpires
  · have hleast := one_le_renewals_of_due hchain hstride hlength hdue (by omega)
    exact Nat.le_antisymm (hmost hticks.le) hleast
  · have hage := hp.age_add_wait hparticle
    have hpos : 0 < stride := hpstride ▸ hstride
    omega
  · refine one_le_renewals_of_long hchain hstride (by rwa [hp.params_eq]) hparticle ?_
    rw [hp.params_eq]
    omega

/-- Three particles that live for two ticks, with a stride of two. -/
def shortLived : Params Float :=
  { Params.default with particleCount := 3, maxAge := 2, fadeOut := 1, recycleStride := 2 }

/-- The second of three short-lived particles is reborn within four ticks of a field that never
answers. -/
theorem recycling_of_shortLived :
    make Bounds.default shortLived 7 = .ok (ofSeed Bounds.default shortLived 7) ∧
      1 ≤ renewals ((ofSeed Bounds.default shortLived 7).steps
        (List.replicate 4 (.step fun _ => .error .noParticle))) 1 := by
  have hbounds : (Bounds.default : Bounds Float).check = .ok () := if_pos (by decide +kernel)
  have hparams : shortLived.check = .ok () := rfl
  have hmade : make Bounds.default shortLived 7 = .ok (ofSeed Bounds.default shortLived 7) :=
    bind_eq_ok.mpr ⟨(), hbounds, bind_eq_ok.mpr ⟨(), hparams, rfl⟩⟩
  obtain ⟨-, -, -, -, -, hleast⟩ := recycling_is_staggered hmade (by decide : 1 < 3) []
    (List.replicate 4 (.step fun _ => .error .noParticle))
  exact ⟨hmade, hleast (by decide) (Nat.le_refl 4)⟩

end Population

end PhasePortrait
