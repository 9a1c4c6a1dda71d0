import PhasePortrait.Binary64.Text
import PhasePortrait.Decimal.Rounding
import PhasePortrait.Setup.Error

/-!
# Pacing

A run may be paced at a number of frames per second, which is a time between two frames in whole
nanoseconds. A time is less than `2 ^ 64` seconds; a rate so small that the time does not fit is not
refused, it aborts the program.

The ticks of a paced run are scheduled by a clock. Its seconds have 63 bits, and not 64: a time that
fits may lead to an instant that the clock cannot read, and that aborts the program too.
-/

namespace PhasePortrait

/-- What a number of frames per second comes to. -/
inductive Pace where
  /-- The time between two frames, in nanoseconds. -/
  | every (nanoseconds : Nat)
  /-- The number is refused. -/
  | refused (cause : SetupError Float)
  /-- The time does not fit. -/
  | overflow

namespace Pace

/-- A time in seconds, in nanoseconds, if it fits: the nearest whole number, and of two equally near
ones the even one. -/
def nanoseconds? (seconds : Float) : Option Nat :=
  if seconds.isFinite && (0.0 : Float) ≤ seconds && seconds < Binary64.twoTo 64 then
    let (num, den) := Decimal.quotient (Binary64.parts seconds)
    some (Decimal.roundHalfEven (num * 1000000000) den)
  else none

/-- The pace of a number of frames per second. -/
def ofRate (fps : Float) : Pace :=
  if !fps.isFinite || fps ≤ (0.0 : Float) then
    .refused (.invalidParameter "fps" (.notPositive fps))
  else
    match nanoseconds? (1.0 / fps) with
    | some n => .every n
    | none => .overflow

end Pace

/-! ## The clock -/

/-- The readings of the clock end here, in nanoseconds. -/
def clockEnd : Nat := Nat.pow 2 63 * 1000000000

/-- A reading of the clock. -/
structure Instant where
  nanoseconds : Nat
  isLt : nanoseconds < clockEnd

/-- The instant that is a time later, if the clock can read it. -/
def Instant.add? (t : Instant) (nanoseconds : Nat) : Option Instant :=
  if h : t.nanoseconds + nanoseconds < clockEnd then some ⟨t.nanoseconds + nanoseconds, h⟩ else none

/-! ## Schedules -/

/-- What the ticks of a run wait for. -/
inductive Scheduler where
  /-- Nothing. -/
  | unthrottled
  /-- The time between two ticks, in nanoseconds, and the instant at which the next one is due. The
  first one is due at once. -/
  | fixedRate (period : Nat) (next : Option Instant)

/-- The schedule behind a tick: the next one is due a period later, if the clock can read that. -/
def Scheduler.after? (period : Nat) (tick : Instant) : Option Scheduler :=
  (tick.add? period).map fun next => fixedRate period (some next)

end PhasePortrait
