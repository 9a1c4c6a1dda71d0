import PhasePortrait.CommandLine.Program

/-!
# The program on this machine

Files, the clock and the two streams of the process. All else is decided by `runProgram`.
-/

namespace PhasePortrait.CommandLine

/-- Why a file could not be used. The code of a failure may come with its sign turned. -/
def faultOf : IO.Error → FileFault
  | .noFileOrDirectory _ _ _ => .missing
  | .permissionDenied _ _ _ => .notAllowed
  | .inappropriateType _ code _ =>
    if code == 20 || code == 0 - 20 then .notADirectory else .isADirectory
  | .userError _ => .notText
  | other => .other (toString other)

/-- Does something that may fail, and tells the reason if it does. -/
def attempt {α : Type} (action : IO α) : IO (Except FileFault α) := do
  try return .ok (← action)
  catch e => return .error (faultOf e)

/-- Sleeps at least for a time in nanoseconds, one day after another. -/
def sleepFor (nanoseconds : Nat) : IO Unit := do
  let milliseconds := (nanoseconds + 999999) / 1000000
  for _ in [0:milliseconds / 86400000] do
    IO.sleep 86400000
  IO.sleep (UInt32.ofNat (milliseconds % 86400000))

/-- The services of this machine. -/
def thisMachine : Host IO where
  readText path := attempt (IO.FS.readFile path)
  write path picture :=
    attempt (IO.FS.writeBinFile path ((picture.map Picture.encode).getD ByteArray.empty))
  clock := UInt64.ofNat <$> IO.monoNanosNow
  now := do return ⟨(← IO.monoNanosNow) % clockEnd, Nat.mod_lt _ (by decide)⟩
  sleep := sleepFor

end PhasePortrait.CommandLine

/-- Runs the program on the words of the command line. -/
def main (words : List String) : IO UInt32 := do
  let outcome ← PhasePortrait.CommandLine.runProgram PhasePortrait.CommandLine.thisMachine words
  IO.print outcome.output
  IO.eprint outcome.errors
  return UInt32.ofNat outcome.exitCode
