import PhasePortrait.Expr.Token

/-!
# Why an equation has no value

Most causes are found in the text alone; the last two depend on the values of the names.
-/

namespace PhasePortrait.Expr

/-- The number of levels that parentheses, signs, exponents and functions may be nested. -/
def maxDepth : Nat := 256

/-- Why an equation has no value at a point. Tokens are told by their text. -/
inductive Error where
  /-- There is no text. -/
  | empty
  /-- The text ends where an operand must stand. -/
  | unexpectedEnd
  /-- The text ends right after a function. -/
  | missingOperand (f : Func)
  /-- An opening parenthesis has no closing one where its contents end. -/
  | mismatchedParentheses
  /-- A word that names nothing. -/
  | unknownToken (text : String)
  /-- A symbol where an operand must stand. -/
  | unexpectedToken (text : String)
  /-- A token after a complete equation. -/
  | trailingToken (text : String)
  /-- More than `maxDepth` levels. -/
  | tooDeep
  /-- A quotient that is not finite. -/
  | divisionNotFinite
  /-- A value that is not finite. -/
  | nonFinite
deriving DecidableEq, Repr

namespace Error

/-- What is told to the user. -/
def message : Error → String
  | empty => "empty expression"
  | unexpectedEnd => "unexpected end of expression"
  | missingOperand f => "function '" ++ f.name ++ "' is missing its operand"
  | mismatchedParentheses => "mismatched parentheses"
  | unknownToken text => "unknown token: " ++ text
  | unexpectedToken text => "unexpected token: " ++ text
  | trailingToken text => "unexpected token after expression: " ++ text
  | tooDeep => "expression nested deeper than " ++ toString maxDepth ++ " levels"
  | divisionNotFinite => "division produced a non-finite value"
  | nonFinite => "expression did not evaluate to a finite number"

/-- Whether the text is at fault, and not the values of the names. -/
def isParseError : Error → Bool
  | divisionNotFinite => false
  | nonFinite => false
  | _ => true

end Error

end PhasePortrait.Expr
