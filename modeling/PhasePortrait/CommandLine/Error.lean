import PhasePortrait.Expr.Error
import PhasePortrait.Binary64.Text
import PhasePortrait.Setup.Error

/-!
# How a command fails

A command that fails tells why and ends with a code that says what kind of thing went wrong.
-/

namespace PhasePortrait.CommandLine

/-- Why a command fails. -/
inductive CommandError where
  /-- The run is refused. -/
  | setup (cause : SetupError Float)
  /-- A file cannot be read or written. -/
  | io (text : String)
  /-- An argument or a file has the wrong contents. -/
  | input (text : String)
  /-- An expression has no value, or no particle could move. -/
  | expression (text : String)

namespace CommandError

/-- The failure that a refused setup is: what concerns a colour is a wrong input, and a file that
cannot be used is told by its own text. -/
def ofSetup : SetupError Float → CommandError
  | .io text => io text
  | .invalidColor fault => input (SetupError.invalidColor fault : SetupError Float).message
  | .unknownScheme name => input (SetupError.unknownScheme name : SetupError Float).message
  | cause => setup cause

/-- What is told to the user. -/
def message : CommandError → String
  | setup cause => cause.message
  | io text => text
  | input text => text
  | expression text => text

/-- The code that the program ends with. -/
def exitCode : CommandError → Nat
  | setup _ => 10
  | io _ => 11
  | input _ => 12
  | expression _ => 14

end CommandError

end PhasePortrait.CommandLine
