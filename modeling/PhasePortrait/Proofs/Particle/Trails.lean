import PhasePortrait.Proofs.Particle.Invariant

/-!
# The trails of traced particles

A traced particle keeps the last places where it was, and drops the oldest one for each that is new.
What it holds after a run is said here without the dropping: the places where the ticks of the run
found it, as far back as its history goes (`Population.Remembers`). The ticks that count are those
since traces were last seeded or emptied (`Population.ticksSince`); which particle is meant does not
change in them, so it is named by its index.

While traces are off nothing is said. Particles that are seeded then are neither moved nor do they
remember, and turning traces on replaces them.
-/

namespace PhasePortrait

namespace Traced

variable {β γ : Type}

/-- Keeping the last items and changing each of them may be done in either order. -/
theorem keepLast_map (f : β → γ) (n : Nat) (items : List β) :
    (keepLast n items).map f = keepLast n (items.map f) := by
  simp [keepLast, List.map_drop]

/-- As many items are kept as there are, up to the number that is asked for. -/
theorem length_keepLast (n : Nat) (items : List β) :
    (keepLast n items).length = min n items.length := by
  rw [keepLast, List.length_drop]
  omega

/-- What was dropped before would be dropped now. -/
theorem keepLast_keepLast_concat (n : Nat) (items : List β) (item : β) :
    keepLast n (keepLast n items ++ [item]) = keepLast n (items ++ [item]) := by
  have hle : items.length - n ≤ items.length := Nat.sub_le _ _
  simp only [keepLast]
  rw [← List.drop_append_of_le_length hle, List.drop_drop]
  congr 1
  simp only [List.length_drop, List.length_append, List.length_cons, List.length_nil]
  omega

end Traced

namespace Population

variable {α : Type}

/-! ## Remembering -/

/-- Where a tick found the traced particle of an index. -/
def foundAt (j : Nat) (tick : Population α × Field α) : Option (Point α) :=
  tick.1.traced[j]?.map Traced.position

/-- **What traced particles remember** of some ticks: where each of them was found by the last ones.
-/
def Remembers (ticks : List (Population α × Field α)) (p : Population α) : Prop :=
  p.traceEnabled = true → ∀ {j t}, p.traced[j]? = some t →
    t.history.map some = (Traced.keepLast p.params.traceLength ticks).map (foundAt j)

theorem remembers_of_empty {p : Population α} (h : ∀ t ∈ p.traced, t.history = []) :
    Remembers [] p := by
  intro _ j t ht
  rw [h t (List.mem_of_getElem? ht)]
  simp [Traced.keepLast]

variable [Scalar α]

/-! ## Seeding and emptying -/

/-- Whether an operation replaces the traced particles by new ones. -/
def reseeds (p : Population α) : Operation α → Bool
  | .setTrace enabled => enabled
  | .setBounds bounds => p.traceEnabled && bounds.isValid
  | .reseedTraces => true
  | .step _ | .clearTraces => false

/-- Whether an operation leaves no history. -/
def forgets (p : Population α) : Operation α → Bool
  | .clearTraces => true
  | op => p.reseeds op

variable [Elementary α] {p : Population α} {bounds : Bounds α}

/-- Bounds that are accepted are taken, and new traced particles are seeded in them while traces are
on. -/
theorem perform_setBounds_of_isValid (hvalid : bounds.isValid = true) :
    p.perform (.setBounds bounds) =
      if p.traceEnabled = true then { p with bounds }.reseedTraces else { p with bounds } := by
  have hok : p.setBounds bounds =
      .ok (if p.traceEnabled = true then { p with bounds }.reseedTraces else { p with bounds }) :=
    bind_eq_ok.mpr ⟨(), Bounds.check_eq_ok.mpr hvalid, rfl⟩
  simp only [perform, hok]

/-- Bounds that are refused change nothing. -/
theorem perform_setBounds_of_not_isValid (hvalid : bounds.isValid = false) :
    p.perform (.setBounds bounds) = p := by
  dsimp only [perform]
  split
  next q hq =>
    obtain ⟨⟨⟩, hcheck, -⟩ := bind_eq_ok.mp hq
    rw [Bounds.check_eq_ok, hvalid] at hcheck
    cases hcheck
  next => rfl

/-- New particles are drawn from the bounds that are in force then. Where it is the bounds that
change, those are the new ones already. -/
theorem traced_of_reseeds {op : Operation α} (h : p.reseeds op = true) :
    (p.perform op).traced =
      (Draw.times p.params.traceCount (p.perform op).bounds.randomPoint p.generator).1.map
        Traced.start := by
  cases op with
  | step | clearTraces => cases h
  | setTrace enabled =>
    obtain rfl : enabled = true := h
    rfl
  | setBounds bounds =>
    obtain ⟨hon, hvalid⟩ := Bool.and_eq_true_iff.mp h
    rw [perform_setBounds_of_isValid hvalid, if_pos hon]
    rfl
  | reseedTraces => rfl

theorem history_of_reseeds {op : Operation α} (h : p.reseeds op = true) :
    ∀ t ∈ (p.perform op).traced, t.history = [] := by
  intro t ht
  rw [traced_of_reseeds h] at ht
  obtain ⟨place, -, rfl⟩ := List.mem_map.mp ht
  rfl

theorem history_of_forgets {op : Operation α} (h : p.forgets op = true) :
    ∀ t ∈ (p.perform op).traced, t.history = [] := by
  cases op with
  | clearTraces =>
    intro t ht
    obtain ⟨before, -, rfl⟩ := List.mem_map.mp ht
    rfl
  | step | setTrace | setBounds | reseedTraces => exact history_of_reseeds h

/-! ## One tick -/

/-- While traces are on, a tick advances every traced particle. -/
theorem traced_step (hon : p.traceEnabled = true) (field : Field α) :
    (p.step field).2.traced = p.traced.map fun t => t.advance field p.params := by
  show (if p.traceEnabled then _ else _) = _
  rw [if_pos hon]

/-- A tick advances the traced particle of an index, and leaves it at that index. -/
theorem getElem?_traced_step (hon : p.traceEnabled = true) (field : Field α) {j : Nat}
    {t : Traced α} (ht : p.traced[j]? = some t) :
    (p.step field).2.traced[j]? = some (t.advance field p.params) := by
  rw [traced_step hon, List.getElem?_map, ht]
  rfl

/-! ## Runs -/

/-- The ticks since traces were last seeded or emptied, in a run on top of some ticks. -/
def ticksSince (ticks : List (Population α × Field α)) (p : Population α) :
    List (Operation α) → List (Population α × Field α)
  | [] => ticks
  | op :: ops => ticksSince (if p.forgets op then [] else ticks ++ p.steps [op]) (p.perform op) ops

/-- One tick more is remembered: the place where it finds a particle is added behind the others, and
the oldest one is dropped if there are too many. -/
theorem Remembers.step {ticks : List (Population α × Field α)} (h : Remembers ticks p)
    (field : Field α) : Remembers (ticks ++ [(p, field)]) (p.step field).2 := by
  intro hon j t ht
  have hon : p.traceEnabled = true := hon
  rw [traced_step hon, List.getElem?_map] at ht
  obtain ⟨before, hbefore, rfl⟩ := Option.map_eq_some_iff.mp ht
  have hplace : foundAt j (p, field) = some before.position := by
    simp [foundAt, hbefore]
  calc (Traced.keepLast p.params.traceLength (before.history ++ [before.position])).map some
    _ = Traced.keepLast p.params.traceLength
          (before.history.map some ++ [foundAt j (p, field)]) := by
      rw [Traced.keepLast_map, List.map_append, List.map_singleton, hplace]
    _ = Traced.keepLast p.params.traceLength
          ((Traced.keepLast p.params.traceLength ticks ++ [(p, field)]).map (foundAt j)) := by
      rw [h hon hbefore, List.map_append, List.map_singleton]
    _ = (Traced.keepLast p.params.traceLength (ticks ++ [(p, field)])).map (foundAt j) := by
      rw [← Traced.keepLast_map, Traced.keepLast_keepLast_concat]

/-- Whatever is done, particles remember the ticks since they were last made to forget. A tick adds
itself, seeding and emptying leave nothing to remember, and everything else leaves the histories
alone. -/
theorem Remembers.perform {ticks : List (Population α × Field α)} (h : Remembers ticks p)
    (op : Operation α) :
    Remembers (if p.forgets op = true then [] else ticks ++ p.steps [op]) (p.perform op) := by
  by_cases hforgets : p.forgets op = true
  · rw [if_pos hforgets]
    exact remembers_of_empty (history_of_forgets hforgets)
  · rw [if_neg hforgets]
    cases op with
    | step field => exact h.step field
    | setTrace enabled =>
      obtain rfl : enabled = false := by simpa [forgets, reseeds] using hforgets
      intro hon
      cases hon
    | setBounds bounds =>
      cases hvalid : bounds.isValid with
      | true =>
        -- Traces are off, or there would be new ones.
        have hoff : p.traceEnabled = false := by simpa [forgets, reseeds, hvalid] using hforgets
        rw [perform_setBounds_of_isValid hvalid, if_neg (by simp [hoff])]
        intro hon
        exact absurd (hoff.symm.trans hon) Bool.false_ne_true
      | false =>
        rw [perform_setBounds_of_not_isValid hvalid]
        show Remembers (ticks ++ []) p
        rwa [List.append_nil]
    | reseedTraces | clearTraces => exact absurd rfl hforgets

theorem Remembers.performAll {ticks : List (Population α × Field α)} (h : Remembers ticks p)
    (ops : List (Operation α)) : Remembers (p.ticksSince ticks ops) (p.performAll ops) := by
  induction ops generalizing p ticks with
  | nil => exact h
  | cons op ops ih => exact ih (h.perform op)

/-- **Histories are exact.** Whatever is done with a population: while its traces are on, the
history of each traced particle holds the places where the last ticks found it, oldest first, as
many as the parameters say or as there were since it was seeded or the traces were emptied. A tick
adds to the history the place where it finds the particle, and takes the particle from there by the
displacement of the velocity; where there is no finite velocity, the particle stays. Seeding
replaces all traced particles by new ones without a history, and emptying leaves them where they
are. -/
theorem histories_are_exact {bounds : Bounds α} {params : Params α} {seed : UInt64}
    {start : Population α} (hmade : make bounds params seed = .ok start)
    (ops : List (Operation α)) :
    let p := start.performAll ops
    let ticks := start.ticksSince [] ops
    (p.traceEnabled = true → ∀ j t, p.traced[j]? = some t →
      t.history.map some = (Traced.keepLast params.traceLength ticks).map (foundAt j) ∧
      t.history.length = min params.traceLength ticks.length ∧
      ∀ field, ∃ next, (p.step field).2.traced[j]? = some next ∧
        next.history = Traced.keepLast params.traceLength (t.history ++ [t.position]) ∧
        (∀ v, field t.position = .ok v → v.isFinite = true →
          next.position = t.position + displacement v params) ∧
        (¬Moves field t.position → next.position = t.position)) ∧
    (∀ op, p.reseeds op = true →
      (p.perform op).traced =
        (Draw.times params.traceCount (p.perform op).bounds.randomPoint p.generator).1.map
          Traced.start ∧
      ∀ t ∈ (p.perform op).traced, t.history = []) ∧
    p.clearTraces.traced.map Traced.position = p.traced.map Traced.position ∧
    ∀ t ∈ p.clearTraces.traced, t.history = [] := by
  intro p ticks
  obtain ⟨-, rfl⟩ := eq_of_make hmade
  have hparams : p.params = params :=
    performAll_induction (P := fun q => q.params = params) (fun hkeeps h => hkeeps.params.trans h)
      (fun _ h => h) ops rfl
  have hnone : (ofSeed bounds params seed).traced = [] := rfl
  have hp : Remembers ticks p := Remembers.performAll (remembers_of_empty (by simp [hnone])) ops
  have hemptied : p.forgets .clearTraces = true := rfl
  refine ⟨fun hon j t ht => ?_, fun op hop => ?_, ?_, history_of_forgets hemptied⟩
  · have hhistory : t.history.map some =
        (Traced.keepLast params.traceLength ticks).map (foundAt j) := by
      rw [← hparams]
      exact hp hon ht
    refine ⟨hhistory, ?_, fun field => ?_⟩
    · have hlength := congrArg List.length hhistory
      rwa [List.length_map, List.length_map, Traced.length_keepLast] at hlength
    · refine ⟨_, getElem?_traced_step hon field ht, ?_, ?_, ?_⟩
      · rw [hparams]
        rfl
      · intro v hv hfinite
        rw [hparams]
        exact Answer.moved_ask hv hfinite params
      · intro hstays
        exact Answer.moved_ask_of_not_moves hstays _
  · rw [← hparams]
    exact ⟨traced_of_reseeds hop, history_of_reseeds hop⟩
  · simp [Population.clearTraces, Traced.forget, Function.comp_def]

/-- Three live particles, and two traced ones that remember two places. -/
def shortTrails : Params Float := { fewTraced with traceLength := 2 }

/-- Three ticks after the traces were emptied, the first of two traced particles remembers the last
two. -/
theorem histories_of_shortTrails :
    let start := ofSeed Bounds.default shortTrails 7
    let tick : Operation Float := .step fun p => .ok ⟨-p.y, p.x⟩
    let ops := [.setTrace true, tick, .clearTraces, tick, tick, tick]
    make Bounds.default shortTrails 7 = .ok start ∧ (start.performAll ops).traceEnabled = true ∧
      ∃ t, (start.performAll ops).traced[0]? = some t ∧ t.history.length = 2 := by
  intro start tick ops
  have hbounds : (Bounds.default : Bounds Float).isValid = true := by decide +kernel
  have hparams : shortTrails.check = .ok () := rfl
  have hmade : make Bounds.default shortTrails 7 = .ok start := make_eq_ok hbounds hparams 7
  have hnone : ∀ op ∈ ops, op ≠ .reseedTraces := by simp [ops, tick]
  have hon : (start.performAll ops).traceEnabled = true := (seeds_eq_traceEnabled start hnone).symm
  have hstart : Sound shortTrails false start := sound_ofSeed hbounds 7
  have htraced : (start.performAll ops).traced.length = 2 := (hstart.performAll ops).length_traced
  have hzero : 0 < (start.performAll ops).traced.length := htraced ▸ Nat.zero_lt_two
  have ht := List.getElem?_eq_getElem hzero
  have hticks : (start.ticksSince [] ops).length = 3 := rfl
  have hlength := ((histories_are_exact hmade ops).1 hon 0 _ ht).2.1
  rw [hticks] at hlength
  exact ⟨hmade, hon, _, ht, hlength⟩

end Population

end PhasePortrait
