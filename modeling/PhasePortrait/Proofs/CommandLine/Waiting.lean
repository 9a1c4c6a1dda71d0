import PhasePortrait.CommandLine.Render

/-!
# Waiting for ticks

A run waits before each of its ticks. The ticks do not touch the machine, and the waits do not touch
the run, except that one of them may abort it. So the waits of a run can be taken together (`waits`),
and what is said of the run is said of its ticks alone.

A wait aborts the run where the clock cannot read the instant one period after the tick
(`Scheduler.after?_eq_none_iff`). How late the clock is then is up to the machine, and nothing is
assumed of it: a clock may stand still, and may jump. Three things are certain all the same. A run
that is not paced is never aborted (`waits_unthrottled`). A period beyond the readings of the clock
aborts the run at its first tick (`waits_of_clockEnd_le`). And a run is not aborted while its clock
stays so early that all of its periods still fit (`isSome_waits_of_early`).
-/

namespace PhasePortrait

theorem Instant.add?_eq_none_iff {t : Instant} {n : Nat} :
    t.add? n = none ↔ clockEnd ≤ t.nanoseconds + n := by
  unfold add?
  split
  next h => exact iff_of_false nofun (Nat.not_le_of_lt h)
  next h => exact iff_of_true rfl (Nat.le_of_not_lt h)

/-- The schedule behind a tick is missing where the next one is due beyond the clock. -/
theorem Scheduler.after?_eq_none_iff {period : Nat} {tick : Instant} :
    after? period tick = none ↔ clockEnd ≤ tick.nanoseconds + period := by
  rw [after?, Option.map_eq_none_iff, Instant.add?_eq_none_iff]

/-- Where it is not missing, the next tick is due exactly one period later. -/
theorem Scheduler.after?_of_lt {period : Nat} {tick : Instant}
    (h : tick.nanoseconds + period < clockEnd) :
    after? period tick = some (.fixedRate period (some ⟨tick.nanoseconds + period, h⟩)) := by
  rw [after?, Instant.add?, dif_pos h]
  rfl

namespace CommandLine

/-- One action and then another, on a machine. -/
theorem bind_apply {μ β γ : Type} (action : StateM μ β) (next : β → StateM μ γ) (machine : μ) :
    (action >>= next) machine = next (action machine).1 (action machine).2 := rfl

variable {μ : Type} (host : Host (StateM μ))

/-- The waits of `n` ticks, one after another. -/
def waits : (n : Nat) → Scheduler → StateM μ (Option Scheduler)
  | 0, scheduler => return some scheduler
  | n + 1, scheduler => do
    match ← host.waitNext scheduler with
    | none => return none
    | some scheduler => waits n scheduler

variable {host}

theorem waits_succ (n : Nat) (scheduler : Scheduler) (machine : μ) :
    waits host (n + 1) scheduler machine =
      match host.waitNext scheduler machine with
      | (none, machine) => (none, machine)
      | (some scheduler, machine) => waits host n scheduler machine := by
  rw [waits, bind_apply]
  cases host.waitNext scheduler machine with
  | mk answer machine => cases answer <;> rfl

/-- Without a pace there is nothing to wait for, and the machine is left alone. -/
theorem waits_unthrottled (n : Nat) (machine : μ) :
    waits host n .unthrottled machine = (some .unthrottled, machine) := by
  induction n with
  | zero => rfl
  | succ n ih => exact ih

/-! ## A fixed rate -/

section FixedRate

variable {period n : Nat} {next : Option Instant} {machine : μ}

/-- When a tick is taken: as soon as it is due, or now if that is later. -/
def tickAt (next : Option Instant) (now : Instant) : Instant :=
  if now.nanoseconds < (next.getD now).nanoseconds then next.getD now else now

/-- A wait is decided by one reading of the clock. -/
theorem waitNext_fixedRate (period : Nat) (next : Option Instant) (machine : μ) :
    (host.waitNext (.fixedRate period next) machine).1 =
      Scheduler.after? period (tickAt next (host.now machine).1) := by
  rw [Host.waitNext, bind_apply, tickAt]
  split <;> rfl

/-- The first tick is due at once, so there is no sleep before it. -/
theorem waitNext_first (period : Nat) (machine : μ) :
    host.waitNext (.fixedRate period none) machine =
      (Scheduler.after? period (host.now machine).1, (host.now machine).2) := by
  rw [Host.waitNext, bind_apply, Option.getD_none, if_neg (Nat.lt_irrefl _)]
  rfl

/-- **A period beyond the readings of the clock** aborts the run before its first tick, whatever the
clock reads. -/
theorem waits_of_clockEnd_le (h : clockEnd ≤ period) (n : Nat) (machine : μ) :
    waits host (n + 1) (.fixedRate period none) machine = (none, (host.now machine).2) := by
  have hnone : Scheduler.after? period (host.now machine).1 = none :=
    Scheduler.after?_eq_none_iff.mpr (Nat.le_add_left_of_le h)
  rw [waits_succ, waitNext_first, hnone]

/-- The bound on what is due is carried along: each wait moves it on by one period, and there is one
period less to come. -/
theorem isSome_waits_of_due (hearly : ∀ machine, (host.now machine).1.nanoseconds + n * period <
    clockEnd) (hdue : ∀ t, next = some t → t.nanoseconds + n * period < clockEnd) (machine : μ) :
    (waits host n (.fixedRate period next) machine).1.isSome = true := by
  induction n generalizing next machine with
  | zero => rfl
  | succ n ih =>
    have hperiods : (n + 1) * period = period + n * period := by
      rw [Nat.succ_mul, Nat.add_comm]
    have htick : (tickAt next (host.now machine).1).nanoseconds + (period + n * period) <
        clockEnd := by
      rw [← hperiods]
      unfold tickAt
      split
      next =>
        cases next with
        | none => exact hearly machine
        | some t => exact hdue t rfl
      next => exact hearly machine
    have hanswer : (host.waitNext (.fixedRate period next) machine).1 = _ :=
      waitNext_fixedRate period next machine
    rw [Scheduler.after?_of_lt (by omega)] at hanswer
    rw [waits_succ]
    cases hwait : host.waitNext (.fixedRate period next) machine with
    | mk answer machine =>
      rw [hwait] at hanswer
      subst hanswer
      refine ih (fun machine => ?_) (fun t ht => ?_) machine
      · have := hearly machine
        omega
      · obtain rfl := Option.some.inj ht
        rw [Nat.add_assoc]
        exact htick

/-- **A clock that is early enough** never aborts a run: if all of its periods fit behind whatever
the clock reads. -/
theorem isSome_waits_of_early (h : ∀ machine, (host.now machine).1.nanoseconds + n * period <
    clockEnd) (machine : μ) :
    (waits host n (.fixedRate period none) machine).1.isSome = true := by
  refine isSome_waits_of_due h (fun t ht => ?_) machine
  cases ht

end FixedRate

end CommandLine

end PhasePortrait
