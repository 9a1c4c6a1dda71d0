import Mathlib.Data.List.DropRight
import PhasePortrait.Proofs.Particle.Recycling
import PhasePortrait.Proofs.Particle.Tally

/-!
# What the counters of a particle tell

A particle carries two counters and no memory. They tell its history all the same: its age is the
number of ticks since it was last reborn, and its ticks outside are as many of the last of these as
ended outside the bounds that were in force then. So they hold what could be read off a record of
all its ticks (`Population.Chronicle`), as long as the run is too short for a counter to stop.

The record is one of the ticks alone. Bounds that are moved between two ticks count from the next
one on, and the counter of the ticks outside does not notice before.
-/

namespace PhasePortrait

theorem countTick_of_lt {n : Nat} (h : n < counterLimit) : countTick n = n + 1 := if_pos h

/-- A particle is spawned inside. -/
theorem Particle.ticksOutside_spawn {α : Type} [Scalar α] (bounds : Bounds α) (params : Params α)
    (g : Generator) : (spawn bounds params g).1.ticksOutside = 0 := rfl

namespace Population

variable {α : Type} [Scalar α] [Elementary α] {i : Nat}

/-! ## One tick -/

/-- Whether a tick renews the particle of an index: its turn has come, and it is expired. -/
def renews (i : Nat) (tick : Population α × Field α) : Bool :=
  tick.1.isTurn i && tick.1.isDue tick.2 i

/-- Whether a tick leaves the particle of an index outside the bounds of that tick. -/
def endsOutside (i : Nat) (tick : Population α × Field α) : Bool :=
  (tick.1.step tick.2).2.particles[i]?.any fun left => !tick.1.bounds.contains left.position

variable {p : Population α} {field : Field α} {found : Particle α}

/-- A tick that renews the particle of an index leaves a new one there. -/
theorem getElem?_step_of_renews (hfound : p.particles[i]? = some found)
    (h : renews i (p, field) = true) :
    ∃ g, (p.step field).2.particles[i]? = some (Particle.reborn p.bounds p.params g).1 := by
  obtain ⟨left, hleft, hsettled⟩ := step_settled hfound field
  obtain ⟨hturn, hdue⟩ := Bool.and_eq_true_iff.mp h
  cases hsettled with
  | reborn _ _ g => exact ⟨g, hleft⟩
  | kept hkept =>
    have hexpires : p.expires field found = true := by simpa [isDue, hfound] using hdue
    rw [hkept hturn] at hexpires
    cases hexpires

/-- A tick that does not leaves the particle there that was found, one tick further. -/
theorem getElem?_step_of_not_renews (hfound : p.particles[i]? = some found)
    (h : renews i (p, field) = false) :
    (p.step field).2.particles[i]? = some (p.advance field found).particle := by
  obtain ⟨left, hleft, hsettled⟩ := step_settled hfound field
  cases hsettled with
  | reborn hturn hexpires g => simp [renews, isDue, hfound, hturn, hexpires] at h
  | kept => exact hleft

/-! ## Lives -/

/-- The ticks of the life of a particle: those since it was last reborn, or all of them. -/
def life (i : Nat) (ticks : List (Population α × Field α)) : List (Population α × Field α) :=
  ticks.rtakeWhile fun tick => !renews i tick

/-- The last ticks of a life, as far back as they ended outside. -/
def away (i : Nat) (ticks : List (Population α × Field α)) : List (Population α × Field α) :=
  (life i ticks).rtakeWhile (endsOutside i)

section Concat

variable {ticks : List (Population α × Field α)} {tick : Population α × Field α}

/-- A tick that renews ends a life, and the next one starts with nothing. -/
theorem life_concat_of_renews (h : renews i tick = true) : life i (ticks ++ [tick]) = [] :=
  List.rtakeWhile_concat_neg _ _ _ (by simp [h])

theorem life_concat_of_not_renews (h : renews i tick = false) :
    life i (ticks ++ [tick]) = life i ticks ++ [tick] :=
  List.rtakeWhile_concat_pos _ _ _ (by simp [h])

theorem life_eq_self (h : ∀ tick ∈ ticks, renews i tick = false) : life i ticks = ticks := by
  rw [life, List.rtakeWhile_eq_self_iff]
  intro tick htick
  simp [h tick htick]

theorem length_life_le (i : Nat) (ticks : List (Population α × Field α)) :
    (life i ticks).length ≤ ticks.length :=
  (List.rtakeWhile_suffix _ _).length_le

theorem length_away_le (i : Nat) (ticks : List (Population α × Field α)) :
    (away i ticks).length ≤ ticks.length :=
  (List.rtakeWhile_suffix _ _).length_le.trans (length_life_le i ticks)

end Concat

/-! ## The record of a particle -/

/-- **What the counters tell** of the ticks of a run: how long the particle has lived, on top of the
age that it was spawned with if it was never reborn, and how long it has been away. -/
structure Chronicle (i : Nat) (spawned : Particle α) (ticks : List (Population α × Field α))
    (particle : Particle α) : Prop where
  age : particle.age =
    (if ∃ tick ∈ ticks, renews i tick = true then 0 else spawned.age) + (life i ticks).length
  ticksOutside : particle.ticksOutside = (away i ticks).length

/-- What one tick did to the particle of an index: it was reborn if its turn had come and it was
expired, and else it grew older by a tick and was moved if the field had a velocity for it. -/
structure Passed (i : Nat) (tick : Population α × Field α) (found left : Particle α) : Prop where
  reborn : renews i tick = true →
    ∃ g, left = (Particle.reborn tick.1.bounds tick.1.params g).1
  age : renews i tick = false → left.age = found.age + 1
  moved : renews i tick = false → ∀ v, tick.2 found.position = .ok v → v.isFinite = true →
    left.position = found.position + displacement v tick.1.params
  stayed : renews i tick = false → ¬Moves tick.2 found.position → left.position = found.position

variable {spawned : Particle α} {ticks : List (Population α × Field α)}

/-- Before the first tick the counters have nothing to tell but the age that the particle was
spawned with. -/
theorem Chronicle.nil (h : spawned.ticksOutside = 0) : Chronicle i spawned [] spawned where
  age := by simp [life]
  ticksOutside := by simp [away, life, h]

/-- A particle that is reborn starts anew. -/
theorem Chronicle.renewed (h : renews i (p, field) = true) (g : Generator) :
    Chronicle i spawned (ticks ++ [(p, field)]) (Particle.reborn p.bounds p.params g).1 where
  age := by
    rw [life_concat_of_renews h, if_pos ⟨_, List.mem_append_right _ List.mem_cons_self, h⟩]
    rfl
  ticksOutside := by
    rw [away, life_concat_of_renews h]
    rfl

/-- An age is no more than that at the start and all ticks, so a short run leaves room in the
counter. -/
theorem Chronicle.age_lt (h : Chronicle i spawned ticks found)
    (hroom : spawned.age + ticks.length < counterLimit) : found.age < counterLimit := by
  have hlife := length_life_le i ticks
  rw [h.age]
  split <;> omega

/-- A particle that goes on counts one tick more, while there is room for it in a counter. The ticks
outside go on only if this one ends outside as well, and else start anew. -/
theorem Chronicle.aged (h : Chronicle i spawned ticks found) (hfound : p.particles[i]? = some found)
    (hrenews : renews i (p, field) = false)
    (hroom : spawned.age + ticks.length < counterLimit) :
    Chronicle i spawned (ticks ++ [(p, field)]) (p.advance field found).particle where
  age := by
    have hsame : (∃ tick ∈ ticks ++ [(p, field)], renews i tick = true) ↔
        ∃ tick ∈ ticks, renews i tick = true := by
      simp [or_and_right, exists_or, hrenews]
    rw [age_advance, countTick_of_lt (h.age_lt hroom), life_concat_of_not_renews hrenews, List.length_append,
      h.age]
    simp only [hsame]
    rfl
  ticksOutside := by
    have haway := length_away_le i ticks
    have hout : found.ticksOutside < counterLimit := by
      rw [h.ticksOutside]
      omega
    have hends : endsOutside i (p, field) =
        !p.bounds.contains (p.advance field found).particle.position := by
      simp [endsOutside, getElem?_step_of_not_renews hfound hrenews]
    rw [away, life_concat_of_not_renews hrenews, List.rtakeWhile_concat, hends]
    show (if p.bounds.contains (p.advance field found).particle.position then 0
      else countTick found.ticksOutside) = _
    cases p.bounds.contains (p.advance field found).particle.position with
    | true => rfl
    | false =>
      simp only [Bool.false_eq_true, if_false, Bool.not_false, if_true, List.length_append]
      rw [countTick_of_lt hout, h.ticksOutside]
      rfl

/-- What a tick does to a particle, in the terms of the record. A particle that is renewed keeps
nothing, so all that is said of its age and its place is said of the others. -/
theorem passed_step (hfound : p.particles[i]? = some found) (hroom : found.age < counterLimit)
    (field : Field α) :
    ∃ left, (p.step field).2.particles[i]? = some left ∧ Passed i (p, field) found left := by
  cases hrenews : renews i (p, field) with
  | true =>
    obtain ⟨g, hleft⟩ := getElem?_step_of_renews hfound hrenews
    exact ⟨_, hleft, fun _ => ⟨g, rfl⟩, by simp [hrenews], by simp [hrenews], by simp [hrenews]⟩
  | false =>
    refine ⟨_, getElem?_step_of_not_renews hfound hrenews, by simp [hrenews], ?_, ?_, ?_⟩
    · intro _
      rw [age_advance, countTick_of_lt hroom]
    · intro _ v hv hfinite
      exact Answer.moved_ask hv hfinite p.params
    · intro _ hstays
      exact Answer.moved_ask_of_not_moves hstays p.params

/-- What is known of a particle after some ticks: its counters tell them, and each of them passed as
it should. -/
structure Recorded (i : Nat) (spawned : Particle α) (ticks : List (Population α × Field α))
    (p : Population α) : Prop where
  now : ∃ particle, p.particles[i]? = some particle ∧ Chronicle i spawned ticks particle
  passed : ∀ tick ∈ ticks, ∃ found left, tick.1.particles[i]? = some found ∧
    (tick.1.step tick.2).2.particles[i]? = some left ∧ Passed i tick found left

/-- One tick more is recorded, whether it renews the particle or not. In either case the tick has
passed as it should, and the counters tell the ticks with this one. -/
theorem Recorded.step (h : Recorded i spawned ticks p)
    (hroom : spawned.age + ticks.length < counterLimit) (field : Field α) :
    Recorded i spawned (ticks ++ [(p, field)]) (p.step field).2 := by
  obtain ⟨found, hfound, hchronicle⟩ := h.now
  refine ⟨?_, ?_⟩
  · cases hrenews : renews i (p, field) with
    | true =>
      obtain ⟨g, hleft⟩ := getElem?_step_of_renews hfound hrenews
      exact ⟨_, hleft, .renewed hrenews g⟩
    | false =>
      exact ⟨_, getElem?_step_of_not_renews hfound hrenews, hchronicle.aged hfound hrenews hroom⟩
  · intro tick htick
    rcases List.mem_append.mp htick with hearlier | hlast
    · exact h.passed tick hearlier
    · obtain rfl := List.mem_singleton.mp hlast
      obtain ⟨left, hleft, hpassed⟩ := passed_step hfound (hchronicle.age_lt hroom) field
      exact ⟨found, left, hfound, hleft, hpassed⟩

/-- The ticks of a run that leaves room in the counters are recorded. The induction adds ticks at
the end of the run, as a record does. -/
theorem recorded_performAll (hspawned : p.particles[i]? = some spawned)
    (hinside : spawned.ticksOutside = 0) (ops : List (Operation α))
    (hroom : spawned.age + (p.steps ops).length ≤ counterLimit) :
    Recorded i spawned (p.steps ops) (p.performAll ops) := by
  have hrecorded := history_induction
    (P := fun ticks q => spawned.age + ticks.length ≤ counterLimit → Recorded i spawned ticks q)
    (fun hkeeps h hroom => ⟨by rw [hkeeps.particles]; exact (h hroom).now, (h hroom).passed⟩)
    (fun field h hroom => by
      rw [List.length_append, List.length_singleton] at hroom
      exact (h (by omega)).step (by omega) field)
    [] ops (fun _ => ⟨⟨spawned, hspawned, .nil hinside⟩, nofun⟩)
  exact hrecorded hroom

/-- **Counters tell the history of a particle.** A run goes through ticks in any fields, with bounds
moved and traces changed between them, and is short enough for the counters not to stop. Afterwards
the age of a particle is the number of ticks since it was reborn, or the age that it was spawned
with and all ticks if it never was; its ticks outside are as many of the last ticks since as ended
outside the bounds of that tick. A tick in which it is not reborn makes it a tick older, and moves
it if and only if the field has a finite velocity where it is. -/
theorem counters_tell_history {bounds : Bounds α} {params : Params α} {seed : UInt64}
    {start : Population α} (hmade : make bounds params seed = .ok start)
    (hi : i < params.particleCount) (ops : List (Operation α))
    (hshort : (start.steps ops).length < UInt32.size - params.maxAge) :
    let ticks := start.steps ops
    ∃ spawned particle, start.particles[i]? = some spawned ∧
      (start.performAll ops).particles[i]? = some particle ∧
      ((∀ tick ∈ ticks, renews i tick = false) → particle.age = spawned.age + ticks.length) ∧
      ((∃ tick ∈ ticks, renews i tick = true) → particle.age = (life i ticks).length) ∧
      particle.ticksOutside = (away i ticks).length ∧
      ∀ tick ∈ ticks, ∃ found left, tick.1.particles[i]? = some found ∧
        (tick.1.step tick.2).2.particles[i]? = some left ∧ Passed i tick found left := by
  intro ticks
  obtain ⟨-, rfl⟩ := eq_of_make hmade
  have hlength : (ofSeed bounds params seed).particles.length = params.particleCount :=
    Draw.length_times _ _ _
  have hspawned := List.getElem?_eq_getElem (hlength ▸ hi)
  generalize (ofSeed bounds params seed).particles[i] = spawned at hspawned
  obtain ⟨g, hg⟩ := Draw.exists_of_mem_times (List.mem_of_getElem? hspawned)
  have hage : spawned.age ≤ params.maxAge := hg ▸ Particle.age_spawn_le bounds params g
  have hinside : spawned.ticksOutside = 0 := hg ▸ Particle.ticksOutside_spawn bounds params g
  have hroom : spawned.age + ticks.length ≤ counterLimit := by
    have hshort : ticks.length < UInt32.size - params.maxAge := hshort
    unfold counterLimit
    omega
  obtain ⟨⟨particle, hparticle, hchronicle⟩, hpassed⟩ :=
    recorded_performAll hspawned hinside ops hroom
  refine ⟨spawned, particle, hspawned, hparticle, ?_, ?_, hchronicle.ticksOutside, hpassed⟩
  · intro hnever
    have hnone : ¬∃ tick ∈ ticks, renews i tick = true := by
      rintro ⟨tick, htick, hrenews⟩
      exact absurd (hnever tick htick) (by simp [hrenews])
    have hage := hchronicle.age
    rwa [if_neg hnone, life_eq_self hnever] at hage
  · intro hrenewed
    have hage := hchronicle.age
    rwa [if_pos hrenewed, Nat.zero_add] at hage

/-- The second of three particles stays where it is for three ticks. The bounds are moved away after
the first of them, so it has been outside for two. -/
theorem counters_of_shortLived :
    let start := ofSeed Bounds.default shortLived 7
    let tick : Operation Float := .step fun _ => .error .noParticle
    let ops := [tick, .setBounds ⟨6.0, 7.0, 6.0, 7.0⟩, tick, tick]
    make Bounds.default shortLived 7 = .ok start ∧ 1 < shortLived.particleCount ∧
      (start.steps ops).length < UInt32.size - shortLived.maxAge ∧
      ∃ spawned particle, start.particles[1]? = some spawned ∧
        (start.performAll ops).particles[1]? = some particle ∧
        particle.age = spawned.age + 3 ∧ particle.ticksOutside = 2 := by
  intro start tick ops
  have hbounds : (Bounds.default : Bounds Float).isValid = true := by decide +kernel
  have hparams : shortLived.check = .ok () := rfl
  have hmade : make Bounds.default shortLived 7 = .ok start := make_eq_ok hbounds hparams 7
  have hcount : 1 < shortLived.particleCount := by decide
  have hlength : (start.steps ops).length = 3 := by decide +kernel
  have hshort : (start.steps ops).length < UInt32.size - shortLived.maxAge := by
    rw [hlength]
    decide
  have hnever : ∀ tick ∈ start.steps ops, renews 1 tick = false := by decide +kernel
  have haway : (away 1 (start.steps ops)).length = 2 := by decide +kernel
  obtain ⟨spawned, particle, hspawned, hparticle, hage, -, houtside, -⟩ :=
    counters_tell_history hmade hcount ops hshort
  refine ⟨hmade, hcount, hshort, spawned, particle, hspawned, hparticle, ?_, houtside.trans haway⟩
  rw [hage hnever, hlength]

end Population

end PhasePortrait
