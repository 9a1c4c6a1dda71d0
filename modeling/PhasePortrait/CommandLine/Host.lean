import PhasePortrait.Pacing
import PhasePortrait.Raster.Picture

/-!
# Hosts

What a command needs from the machine that it runs on. A command is written over any host, so that
it can run on files in memory as well.
-/

namespace PhasePortrait.CommandLine

/-- Why a file is neither read nor written. -/
inductive FileFault where
  /-- Nothing is there, or no directory on the way. -/
  | missing
  /-- The file is closed to the program. -/
  | notAllowed
  /-- Something on the way is a file. -/
  | notADirectory
  /-- A directory is there. -/
  | isADirectory
  /-- A name on the way, or all of the path, is longer than any. -/
  | nameTooLong
  /-- The contents are no text. -/
  | notText
  /-- Anything else, in the words of the machine. -/
  | other (reason : String)
deriving DecidableEq, Repr

/-- The words of a machine for what went wrong. -/
def FileFault.message : FileFault → String
  | missing => "No such file or directory (os error 2)"
  | notAllowed => "Permission denied (os error 13)"
  | notADirectory => "Not a directory (os error 20)"
  | isADirectory => "Is a directory (os error 21)"
  | nameTooLong => "File name too long (os error 36)"
  | notText => "stream did not contain valid UTF-8"
  | other reason => reason

/-- The services of a machine. Files are named by their paths. -/
structure Host (m : Type → Type) where
  /-- The contents of a file. -/
  readText : String → m (Except FileFault String)
  /-- Makes a file, or empties it, and writes a picture if there is one. -/
  write : String → Option Picture → m (Except FileFault Unit)
  /-- A word from the clock. -/
  clock : m UInt64
  /-- What the clock reads. -/
  now : m Instant
  /-- Lets a time go by, in nanoseconds. -/
  sleep : Nat → m Unit

/-- What a program leaves behind when it ends. -/
structure Outcome where
  exitCode : Nat
  output : String
  errors : String
deriving DecidableEq, Repr

end PhasePortrait.CommandLine
