import PhasePortrait.Setup.Error

/-!
# Checks before a run

The bounds must be a rectangle and the canvas must have pixels, not more than a limit. The members
of a parameter object are read with a default for one that is missing or `null`; a member of the
wrong kind is an error and never the default.
-/

namespace PhasePortrait

/-- The largest number of pixels of a canvas: a square of 8192 by 8192. -/
def maxPixels : Nat := 8192 * 8192

variable {α : Type} [Scalar α]

/-- Refuses bounds that are no rectangle. -/
def Bounds.check (b : Bounds α) : Except (SetupError α) Unit :=
  if b.isValid then .ok () else .error (.invalidBounds b)

/-- Refuses a canvas without pixels or with too many. -/
def checkDimensions (width height : Nat) : Except (SetupError α) Unit :=
  if width = 0 ∨ height = 0 ∨ maxPixels < width * height then
    .error (.invalidDimensions width height)
  else .ok ()

namespace Json

/-- The member of a name, if it is there and not `null`. -/
def given? (params : Json) (name : String) : Option Json :=
  (params.get? name).filter fun v => !v.isNull

/-- A member that is a finite number. -/
def numberOr (params : Json) (name : String) (default : Float) : Except (SetupError Float) Float :=
  match params.given? name with
  | none => .ok default
  | some v =>
    match v.toFloat?.filter Float.isFinite with
    | some x => .ok x
    | none => .error (.invalidParameter name (.notANumber v))

/-- A member that is a whole number of 32 bits. -/
def wordOr (params : Json) (name : String) (default : Nat) : Except (SetupError Float) Nat :=
  match params.given? name with
  | none => .ok default
  | some v =>
    match v.toNat?.filter (· < UInt32.size) with
    | some n => .ok n
    | none => .error (.invalidParameter name (.notAWord v))

/-- A member that is a whole number of 64 bits. -/
def countOr (params : Json) (name : String) (default : Nat) : Except (SetupError Float) Nat :=
  match params.given? name with
  | none => .ok default
  | some v =>
    match v.toNat? with
    | some n => .ok n
    | none => .error (.invalidParameter name (.notACount v))

end Json

end PhasePortrait
