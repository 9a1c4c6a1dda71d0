import PhasePortrait.CommandLine.Render
import PhasePortrait.RandomSystem
import PhasePortrait.Raster.PictureName

/-!
# The program

From the words of a command line to what the program leaves behind. A failure is told as a line or,
where JSON is asked for, as an object with the message and the code.
-/

namespace PhasePortrait.CommandLine

/-- How the program is to be used. -/
def usageText : String :=
  "Particle visualizer for 2D vector fields\n\n" ++
  "Usage: flowfield [--json] <COMMAND>\n\n" ++
  "Commands:\n" ++
  "  render  Run the simulation for N ticks and write the final frame as PNG\n" ++
  "  eval    Evaluate one expression at a point\n" ++
  "  random  Print a random system of equations\n" ++
  "  list    List available color schemes\n"

/-- The code of a command line that is misused. -/
def misuseCode : Nat := 2

/-- The code of a program that is aborted. -/
def abortCode : Nat := 101

/-- A text filled up with blanks to a width. -/
def padded (width : Nat) (text : String) : String :=
  text ++ String.ofList (List.replicate (width - text.length) ' ')

/-- The list of the schemes. -/
def listSchemes (json : Bool) : String :=
  if json then
    let entries := Scheme.all.map fun s =>
      Json.ofMembers [("name", .string s.name), ("description", .string s.description)]
    (Json.ofMembers [("schemes", .array entries)]).pretty ++ "\n"
  else
    let lines := Scheme.all.map fun s => "  " ++ padded 10 s.name ++ " " ++ s.description ++ "\n"
    "Color schemes:\n" ++ String.join lines

/-- The value of an expression. -/
def evaluate (args : EvalArgs) (json : Bool) : Ending :=
  match (Expression.ofText args.text).eval ⟨args.x, args.y, args.a, args.b⟩ with
  | .error cause => .failed (.expression cause.message)
  | .ok value =>
    let text :=
      if json then
        (Json.ofMembers [("expr", .string args.text), ("x", .real args.x), ("y", .real args.y),
          ("a", .real args.a), ("b", .real args.b), ("value", .real value)]).pretty
      else Binary64.plain value
    ⟨text ++ "\n", "", .ok ()⟩

/-- A random system. -/
def tellRandom (seed : UInt64) (json : Bool) : String :=
  let ((dx, dy), _) := randomSystem (.ofSeed seed)
  if json then
    (Json.ofMembers [("dx", .string dx), ("dy", .string dy),
      ("seed", .natural seed.toNat)]).pretty ++ "\n"
  else "dx/dt = " ++ dx ++ "\ndy/dt = " ++ dy ++ "\n"

/-- How a failure is told. -/
def CommandError.text (cause : CommandError) (json : Bool) : String :=
  if json then
    (Json.ofMembers [("error", .string cause.message),
      ("exit_code", .natural cause.exitCode)]).pretty ++ "\n"
  else "error: " ++ cause.message ++ "\n"

/-- What the program leaves behind when a command has ended. -/
def Ending.outcome (e : Ending) (json : Bool) : Outcome :=
  match e.result with
  | .ok () => ⟨0, e.output, e.errors⟩
  | .error cause => ⟨cause.exitCode, e.output, e.errors ++ cause.text json⟩

/-- What the program leaves behind when a command has stopped early. -/
def Halt.outcome (halt : Halt) (json : Bool) : Outcome :=
  match halt with
  | .failed cause => (Ending.failed cause).outcome json
  | .aborted cause => ⟨abortCode, "", cause.message ++ "\n"⟩

variable {m : Type → Type} [Monad m]

/-- A file that cannot be used ends the command. -/
def Ending.fileFailed (path message : String) : Ending := .failed (.io (path ++ ": " ++ message))

/-- Writes a picture, and ends as told if that succeeds. The file of a format that is not written is
made and left empty. -/
def save (host : Host m) (path : String) (r : Rendered) : m Ending := do
  match PictureName.format? path with
  | .error fault => return .fileFailed path fault.message
  | .ok format =>
    match ← host.write path (if format = .png then some r.picture else none) with
    | .error fault => return .fileFailed path fault.message
    | .ok () =>
      match format.check with
      | .error fault => return .fileFailed path fault.message
      | .ok () => return r.ending

/-- Renders a run and writes its picture. -/
def render (host : Host m) (args : RenderArgs) (json : Bool) : m Outcome := do
  let contents ← match args.config with
    | some path => some <$> host.readText path
    | none => pure none
  match args.prepare contents with
  | .error halt => return halt.outcome json
  | .ok run =>
    match ← run.played.advance host args.ticks run.scheduler with
    | none => return (Halt.aborted .instant).outcome json
    | some played =>
      match played.rendered args json run.config with
      | .error cause => return (Ending.failed cause).outcome json
      | .ok r => return (← save host args.output r).outcome json

/-- Does what a command asks for. -/
def Command.run (host : Host m) (json : Bool) : Command → m Outcome
  | schemes => return ⟨0, listSchemes json, ""⟩
  | eval args => return (evaluate args json).outcome json
  | random seed => do
    let seed ← match seed with
      | some n => pure (UInt64.ofNat n)
      | none => host.clock
    return ⟨0, tellRandom seed json, ""⟩
  | render args => CommandLine.render host args json

/-- Runs the program on the words behind its name. -/
def runProgram (host : Host m) (words : List String) : m Outcome :=
  match Command.ofWords false words with
  | .error .help => return ⟨0, usageText, ""⟩
  | .error .misuse => return ⟨misuseCode, "", usageText⟩
  | .ok (json, command) => command.run host json

end PhasePortrait.CommandLine
