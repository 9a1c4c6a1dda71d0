import PhasePortrait.Expr.Expression
import PhasePortrait.Point

/-!
# Fields

A field gives each point of the plane a velocity, or says why it has none there. The field of a
planar system is made of two equations over the point and two parameters; the first one is asked
first, so a failure of both is told as a failure of the first.
-/

namespace PhasePortrait

/-- A velocity. -/
structure Velocity (α : Type) where
  vx : α
  vy : α
deriving DecidableEq

namespace Velocity

variable {α : Type}

/-- The speed. -/
def magnitude [Elementary α] (v : Velocity α) : α := Elementary.hypot v.vx v.vy

/-- The direction, in radians. -/
def angle [Elementary α] (v : Velocity α) : α := Elementary.atan2 v.vy v.vx

/-- Whether both parts are finite. -/
def isFinite [Scalar α] (v : Velocity α) : Bool := Scalar.isFinite v.vx && Scalar.isFinite v.vy

end Velocity

/-- One of the two equations of a system. -/
inductive Component where
  | dx
  | dy
deriving DecidableEq, Repr

/-- The left-hand side of an equation. -/
def Component.text : Component → String
  | dx => "dx/dt"
  | dy => "dy/dt"

/-- Why a field has no velocity. -/
inductive FieldError where
  /-- An equation has no value at a point. -/
  | expression (component : Component) (source : String) (cause : Expr.Error)
  /-- No particle has a velocity. -/
  | noParticle
deriving DecidableEq, Repr

/-- What is told to the user. -/
def FieldError.message : FieldError → String
  | expression component source cause =>
    "invalid expression for " ++ component.text ++ ": \"" ++ source ++ "\" (" ++
      cause.message ++ ")"
  | noParticle => "no valid particles, check your equations"

/-- A velocity for every point, or the reason why there is none. -/
abbrev Field (α : Type) := Point α → Except FieldError (Velocity α)

/-- The planar system `dx/dt = dx`, `dy/dt = dy`, over the point and the parameters `a` and `b`. -/
structure VectorField (α : Type) where
  dx : Expression α
  dy : Expression α
  a : α
  b : α

namespace VectorField

variable {α : Type} [Scalar α]

/-- The system of two texts. Errors in them show when the field is asked. -/
def ofTexts (dx dy : String) (a b : α) : VectorField α := ⟨.ofText dx, .ofText dy, a, b⟩

variable [Elementary α] [Numeral α]

/-- The value of one equation at a point. -/
def component (which : Component) (e : Expression α) (bindings : Expr.Bindings α) :
    Except FieldError α :=
  match e.eval bindings with
  | .ok value => .ok value
  | .error cause => .error (.expression which e.source cause)

/-- The velocity at a point. -/
def velocityAt (f : VectorField α) : Field α := fun p => do
  let bindings : Expr.Bindings α := ⟨p.x, p.y, f.a, f.b⟩
  let vx ← component .dx f.dx bindings
  let vy ← component .dy f.dy bindings
  return ⟨vx, vy⟩

end VectorField

end PhasePortrait
