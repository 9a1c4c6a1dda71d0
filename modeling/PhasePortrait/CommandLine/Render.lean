import PhasePortrait.CommandLine.Command
import PhasePortrait.CommandLine.Error
import PhasePortrait.CommandLine.Host
import PhasePortrait.Config.Read
import PhasePortrait.Flow
import PhasePortrait.Pacing
import PhasePortrait.Raster.Renderer
import PhasePortrait.Simulation

/-!
# Rendering a run

A configuration is made of a file and of the arguments, which have the last word. A run of as many
ticks as are asked for is drawn, each of them waited for at the pace that is asked for, and its
picture is written.

The picture does not depend on the pace. But a run that is to wait for an instant that the clock
cannot read is aborted, and then there is none.
-/

namespace PhasePortrait.CommandLine

/-- The configuration of a file, as far as the contents of the file give one. -/
def configOfFile (path : String) (contents : Except FileFault String) :
    Except CommandError Config := do
  match contents with
  | .error fault => .error (.io ("reading " ++ path ++ ": " ++ fault.message))
  | .ok text =>
    match Config.ofText? text with
    | some config => .ok config
    | none => .error (.input ("invalid config " ++ path ++ ": not a configuration in JSON"))

/-- The parameters with those of a JSON text on top. -/
def overrideParams (params : Json) (text : String) : Except CommandError Json :=
  match Json.ofText? text with
  | none => .error (.input "invalid --params JSON: not a JSON text")
  | some (.object more) =>
    match params with
    | .object members => .ok (.object (Json.putAll members more))
    | _ => .ok (.object more)
  | some _ => .error (.input "--params must be a JSON object")

namespace RenderArgs

/-- The scheme that is asked for, or else the given one. -/
def schemeOr (args : RenderArgs) (base : Scheme) : Except CommandError Scheme :=
  match args.scheme with
  | none => .ok base
  | some name => (Scheme.ofName name).mapError .ofSetup

/-- The background that is asked for, or else the given one. -/
def backgroundOr (args : RenderArgs) (base : Rgb Float) : Except CommandError (Rgb Float) :=
  match args.background with
  | none => .ok base
  | some text => (Rgb.ofHex text).mapError fun fault => .ofSetup (.invalidColor fault)

/-- The parameters that are asked for on top of the given ones. -/
def paramsOver (args : RenderArgs) (base : Json) : Except CommandError Json :=
  match args.params with
  | none => .ok base
  | some text => overrideParams base text

/-- The configuration that the arguments make of a given one. -/
def applyTo (args : RenderArgs) (base : Config) : Except CommandError Config := do
  let scheme ← args.schemeOr base.scheme
  let background ← args.backgroundOr base.background
  let params ← args.paramsOver base.params
  return {
    dx := args.dx.getD base.dx
    dy := args.dy.getD base.dy
    a := args.a.getD base.a
    b := args.b.getD base.b
    bounds := {
      xMin := args.xMin.getD base.bounds.xMin
      xMax := args.xMax.getD base.bounds.xMax
      yMin := args.yMin.getD base.bounds.yMin
      yMax := args.yMax.getD base.bounds.yMax }
    width := args.width.getD base.width
    height := args.height.getD base.height
    trace := base.trace || args.trace
    scheme
    background
    seed := (args.seed.map UInt64.ofNat).getD base.seed
    params }

/-- The configuration of the arguments, over the contents of the file they name. -/
def toConfig (args : RenderArgs) (contents : Option (Except FileFault String)) :
    Except CommandError Config := do
  let base ← match args.config, contents with
    | some path, some contents => configOfFile path contents
    | _, _ => pure Config.default
  args.applyTo base

end RenderArgs

/-! ## The run -/

/-- A loop around a flow. -/
abbrev FlowLoop := Simulation Flow Unit

/-- How flows are built. -/
def flowFactory : Factory Flow Unit := fun config state => (Flow.ofConfig config, state)

/-- Draws on the picture, and lets the loop go on. -/
def drawPicture : Drawing (Renderer Float) := fun scene r => (false, r.render scene)

/-- What a run leaves behind. -/
structure Played where
  /-- The report of the last tick. -/
  last : Option Report
  loop : FlowLoop
  renderer : Renderer Float

section Run

variable {m : Type → Type} [Monad m]

/-- Waits until the next tick is due, and gives the schedule behind it, if there can be one. A tick
that is late is due now, so those behind it do not catch up. -/
def Host.waitNext (host : Host m) : Scheduler → m (Option Scheduler)
  | .unthrottled => return some .unthrottled
  | .fixedRate period next => do
    let now ← host.now
    let due := next.getD now
    if now.nanoseconds < due.nanoseconds then
      host.sleep (due.nanoseconds - now.nanoseconds)
      return Scheduler.after? period due
    else return Scheduler.after? period now

/-- Up to `n` ticks, each of them waited for. Nothing is left where a wait aborts the run. -/
def Played.advance (host : Host m) : (n : Nat) → Scheduler → Played → m (Option Played)
  | 0, _, p => return some p
  | n + 1, scheduler, p => do
    match ← host.waitNext scheduler with
    | none => return none
    | some scheduler =>
      match p.loop.tick drawPicture p.renderer with
      | (none, loop, renderer) => return some { p with loop, renderer }
      | (some report, loop, renderer) =>
        advance host n scheduler { last := some report, loop, renderer }

end Run

/-- A run that has not begun, of a loop that is started. -/
def Played.start (config : Config) : Except (SetupError Float) Played :=
  match (Simulation.idle config ()).start flowFactory with
  | (.error cause, _) => .error cause
  | (.ok (), loop) => .ok { last := none, loop, renderer := .empty }

/-- The picture that a run leaves behind. -/
def Played.picture (p : Played) : Except CommandError Picture :=
  match p.renderer.frame with
  | none => .error (.io "no frame was rendered")
  | some frame => (Picture.ofFrame frame).mapError .ofSetup

/-- Whether a run whose picture is written still failed: no particle moved in its last tick. -/
def Played.verdict (p : Played) : Except CommandError Unit :=
  match p.last, p.loop.status with
  | some report, some message => if report.isInvalid then .error (.expression message) else .ok ()
  | _, _ => .ok ()

/-- What is told about a run in JSON. -/
def Played.toJson (p : Played) (config : Config) (output : String) : Json := .ofMembers [
  ("output", .string output),
  ("width", .natural config.width),
  ("height", .natural config.height),
  ("ticks", .natural p.loop.ticks),
  ("seed", .natural config.seed.toNat),
  ("dx", .string config.dx),
  ("dy", .string config.dy),
  ("scheme", .string config.scheme.name),
  ("status", (p.loop.status.map Json.string).getD .null)]

/-- What is told about a run in words. -/
def Played.summary (p : Played) (config : Config) (output : String) : String :=
  "rendered " ++ toString config.width ++ "x" ++ toString config.height ++ " (" ++
    toString p.loop.ticks ++ " ticks, seed " ++ toString config.seed.toNat ++ ") -> " ++ output ++
    "\n" ++ (p.loop.status.map fun message => "warning: " ++ message ++ "\n").getD ""

/-! ## The command -/

/-- What a command has printed, and how it ended. -/
structure Ending where
  output : String
  errors : String
  result : Except CommandError Unit

/-- A command that fails before it prints anything. -/
def Ending.failed (cause : CommandError) : Ending := ⟨"", "", .error cause⟩

/-- What may abort the program. -/
inductive Overflow where
  /-- The time between two frames does not fit. -/
  | duration
  /-- The clock cannot read the instant at which a tick is due. -/
  | instant
deriving DecidableEq, Repr

/-- What the program says when it is aborted. -/
def Overflow.message : Overflow → String
  | duration => "cannot convert float seconds to Duration: value is either too big or NaN"
  | instant => "overflow when adding duration to instant"

/-- Why a command does not come to a picture. -/
inductive Halt where
  | failed (cause : CommandError)
  | aborted (cause : Overflow)

/-- The schedule that is asked for. -/
def RenderArgs.scheduler (args : RenderArgs) : Except Halt Scheduler :=
  match args.fps.map Pace.ofRate with
  | none => .ok .unthrottled
  | some (.every n) => .ok (.fixedRate n none)
  | some (.refused cause) => .error (.failed (.ofSetup cause))
  | some .overflow => .error (.aborted .duration)

/-- A run that is about to begin. -/
structure Prepared where
  config : Config
  scheduler : Scheduler
  played : Played

/-- Prepares a run, over the contents of the configuration file. -/
def RenderArgs.prepare (args : RenderArgs) (contents : Option (Except FileFault String)) :
    Except Halt Prepared := do
  let config ← (args.toConfig contents).mapError .failed
  let scheduler ← args.scheduler
  let played ← (Played.start config).mapError fun cause => .failed (.ofSetup cause)
  return { config, scheduler, played }

/-- A picture and what is told once it is written. -/
structure Rendered where
  picture : Picture
  ending : Ending

/-- What comes of a run that is over. -/
def Played.rendered (p : Played) (args : RenderArgs) (json : Bool) (config : Config) :
    Except CommandError Rendered := do
  let picture ← p.picture
  return {
    picture
    ending := {
      output := if json then (p.toJson config args.output).pretty ++ "\n" else ""
      errors := if json then "" else p.summary config args.output
      result := p.verdict } }

end PhasePortrait.CommandLine
