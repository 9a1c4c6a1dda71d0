import PhasePortrait.Binary64.Read
import PhasePortrait.CommandLine.Arguments

/-!
# Commands

What the program is asked to do. The flag that asks for JSON may stand before the command or among
its arguments.
-/

namespace PhasePortrait.CommandLine

/-- A point and parameters to evaluate an expression at. -/
structure EvalArgs where
  text : String
  x : Float
  y : Float
  a : Float
  b : Float

/-- What a picture is to be rendered from. What is not given is left to the configuration. -/
structure RenderArgs where
  config : Option String
  dx : Option String
  dy : Option String
  a : Option Float
  b : Option Float
  xMin : Option Float
  xMax : Option Float
  yMin : Option Float
  yMax : Option Float
  width : Option Nat
  height : Option Nat
  seed : Option Nat
  scheme : Option String
  background : Option String
  trace : Bool
  params : Option String
  ticks : Nat
  fps : Option Float
  output : String

/-- What the program is asked to do. -/
inductive Command where
  /-- List the colour schemes. -/
  | schemes
  /-- Evaluate an expression. -/
  | eval (args : EvalArgs)
  /-- Make up a random system. -/
  | random (seed : Option Nat)
  /-- Run a system and write its picture. -/
  | render (args : RenderArgs)

/-! ## Values -/

/-- A whole number of 64 bits; a plus sign may stand before it. -/
def word? (text : String) : Option Nat :=
  let digits := match text.toList with
    | '+' :: digits => digits
    | digits => digits
  if digits.isEmpty || !digits.all Char.isDigit then none
  else
    let n := Binary64.digitsValue digits
    if n < UInt64.size then some n else none

/-- Any text, with the hyphens that are taken. -/
def textKind (hyphens : Hyphens) : ValueKind := ⟨hyphens, fun _ => true⟩

/-- The path of a file, which is not empty. -/
def pathKind : ValueKind := ⟨.no, fun text => !text.isEmpty⟩

/-- A binary64 number. -/
def floatKind (hyphens : Hyphens) : ValueKind := ⟨hyphens, fun text => (Binary64.read? text).isSome⟩

/-- A whole number of 64 bits. -/
def wordKind : ValueKind := ⟨.no, fun text => (word? text).isSome⟩

/-- A whole number of 64 bits that is not zero. -/
def positiveKind : ValueKind :=
  ⟨.no, fun text => ((word? text).map fun n => decide (0 < n)).getD false⟩

/-! ## The arguments of each command -/

/-- An option with a long name and a letter. -/
def both (name : String) (letter : Char) (kind : ValueKind) : Opt :=
  ⟨some name, some letter, some kind⟩

/-- An option with a long name. -/
def long (name : String) (kind : ValueKind) : Opt := ⟨some name, none, some kind⟩

/-- An option with a letter. -/
def short (letter : Char) (kind : ValueKind) : Opt := ⟨none, some letter, some kind⟩

/-- A flag. -/
def flag (name : String) : Opt := ⟨some name, none, none⟩

/-- The flag that asks for JSON. -/
def jsonFlag : Opt := flag "json"

/-- No arguments. -/
def schemesUsage : Usage := ⟨[jsonFlag], none⟩

/-- The arguments of an evaluation. -/
def evalUsage : Usage where
  options := [
    jsonFlag,
    long "x" (floatKind .numbers),
    long "y" (floatKind .numbers),
    short 'a' (floatKind .numbers),
    short 'b' (floatKind .numbers)]
  operand := some (textKind .any)

/-- The arguments of a random system. -/
def randomUsage : Usage := ⟨[jsonFlag, long "seed" wordKind], none⟩

/-- The arguments of a rendering. -/
def renderUsage : Usage where
  options := [
    jsonFlag,
    both "config" 'c' pathKind,
    long "dx" (textKind .any),
    long "dy" (textKind .any),
    short 'a' (floatKind .numbers),
    short 'b' (floatKind .numbers),
    long "x-min" (floatKind .numbers),
    long "x-max" (floatKind .numbers),
    long "y-min" (floatKind .numbers),
    long "y-max" (floatKind .numbers),
    both "width" 'W' wordKind,
    both "height" 'H' wordKind,
    long "seed" wordKind,
    both "scheme" 's' (textKind .no),
    long "background" (textKind .no),
    flag "trace",
    long "params" (textKind .no),
    both "ticks" 't' positiveKind,
    long "fps" (floatKind .no),
    both "output" 'o' pathKind]
  operand := none

/-! ## Reading a command -/

/-- The number given for an option. -/
def Arguments.float? (a : Arguments) (key : String) : Option Float :=
  (a.value? key).bind Binary64.read?

/-- The whole number given for an option. -/
def Arguments.word? (a : Arguments) (key : String) : Option Nat :=
  (a.value? key).bind CommandLine.word?

/-- The arguments of an evaluation; a number that is not given is zero. -/
def EvalArgs.ofArguments (a : Arguments) : EvalArgs where
  text := a.operand.getD ""
  x := (a.float? "x").getD 0.0
  y := (a.float? "y").getD 0.0
  a := (a.float? "a").getD 0.0
  b := (a.float? "b").getD 0.0

/-- The arguments of a rendering. -/
def RenderArgs.ofArguments (a : Arguments) : RenderArgs where
  config := a.value? "config"
  dx := a.value? "dx"
  dy := a.value? "dy"
  a := a.float? "a"
  b := a.float? "b"
  xMin := a.float? "x-min"
  xMax := a.float? "x-max"
  yMin := a.float? "y-min"
  yMax := a.float? "y-max"
  width := a.word? "width"
  height := a.word? "height"
  seed := a.word? "seed"
  scheme := a.value? "scheme"
  background := a.value? "background"
  trace := a.has "trace"
  params := a.value? "params"
  ticks := (a.word? "ticks").getD 300
  fps := a.float? "fps"
  output := (a.value? "output").getD "flowfield.png"

/-- The names of the commands. -/
def commandNames : List String := ["render", "eval", "random", "list"]

/-- Reads the arguments of a command of a name, and whether they ask for JSON. -/
def Command.ofArguments (name : String) (words : List String) : Except Stop (Bool × Command) := do
  let read (u : Usage) (make : Arguments → Command) : Except Stop (Bool × Command) := do
    let a ← Arguments.ofWords u words
    return (a.has "json", make a)
  match name with
  | "list" => read schemesUsage fun _ => .schemes
  | "eval" => read evalUsage fun a => .eval (.ofArguments a)
  | "random" => read randomUsage fun a => .random (a.word? "seed")
  | "render" => read renderUsage fun a => .render (.ofArguments a)
  | _ => .error .misuse

/-- Reads the words behind the word `help`: nothing, or the name of a command. -/
def helpOn : List String → Stop
  | [] => .help
  | [name] => if commandNames.contains name || name == "help" then .help else .misuse
  | _ => .misuse

/-- Reads a command line: the flag for JSON, at most once before the name of the command, and what
the command takes. -/
def Command.ofWords (json : Bool) : List String → Except Stop (Bool × Command)
  | [] => .error .misuse
  | "--json" :: words => if json then .error .misuse else ofWords true words
  | "--help" :: _ => .error .help
  | "help" :: words => .error (helpOn words)
  | name :: words =>
    match name.toList with
    | '-' :: 'h' :: _ => .error .help
    | _ => do
      let (inner, command) ← ofArguments name words
      return (json || inner, command)

end PhasePortrait.CommandLine
