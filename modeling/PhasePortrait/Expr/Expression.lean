import PhasePortrait.Expr.Scan
import PhasePortrait.Expr.Walk
import PhasePortrait.Text.Blank

/-!
# Equations

The right-hand side of an equation, as its text and its tokens. Making one never fails: a half-typed
equation is an equation, and what is wrong with it is found when its value is asked for.
-/

namespace PhasePortrait

open PhasePortrait.Expr

/-- The right-hand side of an equation. -/
structure Expression (α : Type) where
  /-- The text without blanks around it and without semicolons at its end. -/
  source : String
  /-- The tokens of the text. -/
  tokens : List (Token α)

namespace Expression

variable {α : Type} [Scalar α]

/-- The characters of a text that an equation keeps. -/
def clean (text : String) : List Char := Text.dropEnd (· == ';') (Text.trim text.toList)

/-- The equation of a text. -/
def ofText (text : String) : Expression α :=
  ⟨String.ofList (clean text), tokenize (clean text)⟩

variable [Elementary α] [Numeral α]

/-- The finite value of an equation, or the first error met. -/
def eval (e : Expression α) (bindings : Bindings α) : Except Expr.Error α :=
  if e.source.isEmpty then .error .empty else walk bindings e.tokens

/-- The value of an equation, or zero; and the last error that any equation left behind. -/
def evalOrZero (e : Expression α) (bindings : Bindings α) (last : Option Expr.Error) :
    α × Option Expr.Error :=
  match e.eval bindings with
  | .ok value => (value, last)
  | .error cause => (0.0, some cause)

end Expression

end PhasePortrait
