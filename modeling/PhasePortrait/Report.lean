import PhasePortrait.Field

/-!
# Reports

What a tick tells about its particles: how many had a velocity, how many had none, and the first
reason that was given for one of those.
-/

namespace PhasePortrait

/-- What a field answers for one particle. -/
inductive Answer (α : Type) where
  /-- A finite velocity. -/
  | moving (v : Velocity α)
  /-- A velocity that is not finite. -/
  | undefined
  /-- No velocity, for a reason. -/
  | failed (cause : FieldError)

/-- The answer of a field at a point. -/
def Answer.ask {α : Type} [Scalar α] (field : Field α) (p : Point α) : Answer α :=
  match field p with
  | .ok v => if v.isFinite then moving v else undefined
  | .error cause => failed cause

/-- The velocity of an answer. -/
def Answer.velocity? {α : Type} : Answer α → Option (Velocity α)
  | moving v => some v
  | _ => none

/-- The counts of a tick and its first reason. -/
structure Report where
  successes : Nat
  failures : Nat
  firstError : Option FieldError
deriving DecidableEq

namespace Report

/-- Nothing has been asked. -/
def empty : Report := ⟨0, 0, none⟩

/-- One more particle had a velocity. -/
def succeed (r : Report) : Report := { r with successes := r.successes + 1 }

/-- One more particle had none, and no reason was given. -/
def miss (r : Report) : Report := { r with failures := r.failures + 1 }

/-- One more particle had none, for a reason; the first reason is kept. -/
def fail (r : Report) (cause : FieldError) : Report :=
  { r with
    failures := r.failures + 1
    firstError := r.firstError.or (some cause) }

/-- The report after one more answer. -/
def record {α : Type} (r : Report) : Answer α → Report
  | .moving _ => r.succeed
  | .undefined => r.miss
  | .failed cause => r.fail cause

/-- Whether particles were asked for and none had a velocity. -/
def isInvalid (r : Report) : Bool := r.successes == 0 && 0 < r.failures

/-- Whether every particle had a velocity. -/
def isClean (r : Report) : Bool := r.failures == 0

/-- The error of the tick, if there is one. -/
def error? (r : Report) : Option FieldError :=
  if r.isInvalid then some .noParticle else r.firstError

/-- The line that tells about the tick. Where no particle had a velocity it names the reason too. -/
def status? (r : Report) : Option String :=
  match r.isInvalid, r.firstError with
  | true, some cause => some (FieldError.noParticle.message ++ ": " ++ cause.message)
  | _, some cause => some cause.message
  | true, none => some FieldError.noParticle.message
  | false, none => none

end Report

end PhasePortrait
