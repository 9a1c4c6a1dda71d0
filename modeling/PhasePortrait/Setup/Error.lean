import PhasePortrait.Bounds
import PhasePortrait.Color.Hex

/-!
# Why a run cannot start

The reasons for which a configuration is refused, and for which a file cannot be used. A run that
has started meets none of them by itself.
-/

namespace PhasePortrait

/-- Why the value of a parameter is refused. -/
inductive Fault (α : Type) where
  /-- A member is no finite number. -/
  | notANumber (got : Json)
  /-- A member is no whole number of 32 bits. -/
  | notAWord (got : Json)
  /-- A member is no whole number of 64 bits. -/
  | notACount (got : Json)
  /-- The parameters are no object. -/
  | notAnObject (got : Json)
  /-- A count is over its limit. -/
  | overLimit (limit got : Nat)
  /-- The fading out takes longer than the life it ends. -/
  | longerThanLife (life got : Nat)
  /-- A zero that is divided by. -/
  | zero
  /-- A number is not in `[0, 1]`. -/
  | notAPart (got : α)
  /-- A number is not finite. -/
  | notFinite (got : α)
  /-- A number is not finite and positive. -/
  | notPositive (got : α)
  /-- A number is negative or not finite. -/
  | negative (got : α)

/-- Why a run cannot start. -/
inductive SetupError (α : Type) where
  /-- The bounds are no rectangle. -/
  | invalidBounds (bounds : Bounds α)
  /-- The canvas has no pixels, or too many. -/
  | invalidDimensions (width height : Nat)
  /-- A parameter is out of its range. -/
  | invalidParameter (name : String) (fault : Fault α)
  /-- A text is no colour. -/
  | invalidColor (fault : ColorFault)
  /-- No colour scheme has this name. -/
  | unknownScheme (name : String)
  /-- A file cannot be read or written. -/
  | io (text : String)

variable {α : Type} [Numeral α]

/-- The reason in words. -/
def Fault.reason : Fault α → String
  | notANumber got => "expected a finite number, got " ++ got.compact
  | notAWord got => "expected an integer in 0..=4294967295, got " ++ got.compact
  | notACount got => "expected a non-negative integer, got " ++ got.compact
  | notAnObject got => "expected a JSON object, got " ++ got.compact
  | overLimit limit got => "must be at most " ++ toString limit ++ ", got " ++ toString got
  | longerThanLife life got =>
    "must not exceed max_age (" ++ toString life ++ "), got " ++ toString got
  | zero => "must be at least 1"
  | notAPart got => "must be in [0, 1], got " ++ Numeral.text got
  | notFinite got => "must be finite, got " ++ Numeral.text got
  | notPositive got => "must be finite and positive, got " ++ Numeral.text got
  | negative got => "must be finite and non-negative, got " ++ Numeral.text got

/-- Two ends of a range in brackets. -/
def SetupError.range (low high : α) : String :=
  "[" ++ Numeral.text low ++ ", " ++ Numeral.text high ++ "]"

/-- What is told to the user. -/
def SetupError.message : SetupError α → String
  | invalidBounds b =>
    "invalid bounds: x " ++ range b.xMin b.xMax ++ ", y " ++ range b.yMin b.yMax ++
      " (each min must be below its max)"
  | invalidDimensions width height =>
    "invalid dimensions: width and height must be positive, got " ++ toString width ++ "x" ++
      toString height
  | invalidParameter name fault => "invalid parameter '" ++ name ++ "': " ++ fault.reason
  | invalidColor fault => "invalid color: " ++ fault.message
  | unknownScheme name => "unknown color scheme: " ++ name
  | io text => "i/o error: " ++ text

end PhasePortrait
