import PhasePortrait.Expr.Token
import PhasePortrait.Generator

/-!
# Random systems

Systems to explore. An equation is a sum of two or three monomials in one of the two coordinates,
with a coefficient from 1 to 9 and a power from 1 to 5; three in ten are put inside a sine or a
cosine, and half of those behind the first are subtracted.
-/

namespace PhasePortrait

/-- A monomial, or the sine or cosine of one. -/
structure Monomial where
  coordinate : Expr.Var
  coefficient : Nat
  power : Nat
  /-- The function it is put inside. -/
  wrapper : Option Expr.Func
deriving DecidableEq, Repr

namespace Monomial

/-- The text of the monomial alone; a coefficient or a power of one is left out. -/
def bareText (m : Monomial) : String :=
  (if m.coefficient = 1 then "" else toString m.coefficient ++ "*") ++ m.coordinate.name ++
    if m.power = 1 then "" else "^" ++ toString m.power

/-- The text of the monomial. -/
def text (m : Monomial) : String :=
  match m.wrapper with
  | some f => f.name ++ "(" ++ m.bareText ++ ")"
  | none => m.bareText

/-- A random monomial. -/
def random : Draw Monomial := do
  let name ← Draw.below 2
  let coefficient ← Draw.below 9
  let power ← Draw.below 5
  let wrapped ← Draw.unit
  let wrapper ←
    if wrapped < (0.3 : Float) then do
      let function ← Draw.below 2
      pure (some (if function = 0 then Expr.Func.sin else Expr.Func.cos))
    else pure none
  return {
    coordinate := if name = 0 then .x else .y
    coefficient := coefficient + 1
    power := power + 1
    wrapper }

end Monomial

/-- A sum of monomials, of which those behind the first may be subtracted. -/
structure RandomEquation where
  first : Monomial
  /-- Whether each is subtracted, and the monomial. -/
  rest : List (Bool × Monomial)
deriving DecidableEq, Repr

namespace RandomEquation

/-- The text of the equation. -/
def text (e : RandomEquation) : String :=
  e.rest.foldl (fun text (subtracted, m) => text ++ (if subtracted then " - " else " + ") ++ m.text)
    e.first.text

/-- A monomial and whether it is subtracted, in the order in which they are drawn. -/
def randomSummand : Draw (Bool × Monomial) := do
  let m ← Monomial.random
  let sign ← Draw.unit
  return (decide (sign < (0.5 : Float)), m)

/-- A random equation. -/
def random : Draw RandomEquation := do
  let more ← Draw.below 2
  let first ← Monomial.random
  let rest ← Draw.times (more + 1) randomSummand
  return { first, rest }

end RandomEquation

/-- The texts of a random system: first the equation of `dx/dt`, then that of `dy/dt`. -/
def randomSystem : Draw (String × String) := do
  let dx ← RandomEquation.random
  let dy ← RandomEquation.random
  return (dx.text, dy.text)

end PhasePortrait
