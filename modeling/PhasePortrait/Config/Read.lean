import PhasePortrait.Config.Basic
import PhasePortrait.Json.Record

/-!
# Reading a configuration

A configuration is a record in JSON: a field that is missing has its default, and one that is given
must be of its kind. A number may be whole or not where a number is asked for; where a whole number
is asked for it must be one. The bounds are a record in which no field may be missing.
-/

namespace PhasePortrait

open PhasePortrait.Json (Source)

/-- The scheme of an exact name, or of an object whose only member has that name and is `null`. -/
def Scheme.ofSource? : Source → Option Scheme
  | .string letters => do ofExactName? (← Source.string? letters)
  | .object [(letters, .null)] => do ofExactName? (← Source.string? letters)
  | _ => none

/-- The colour of a text of hexadecimal digits. -/
def Rgb.ofSource? (source : Source) : Option (Rgb Float) := do
  match Rgb.ofHex (← source.toString?) with
  | .ok color => return color
  | .error _ => none

/-- The rectangle of four numbers. -/
def Bounds.ofSource? (source : Source) : Option (Bounds Float) := do
  match ← source.fields? ["x_min", "x_max", "y_min", "y_max"] with
  | [some xMin, some xMax, some yMin, some yMax] =>
    return ⟨← xMin.toFloat?, ← xMax.toFloat?, ← yMin.toFloat?, ← yMax.toFloat?⟩
  | _ => none

namespace Config

/-- The names of the fields, in their order. -/
def fieldNames : List String :=
  ["dx", "dy", "a", "b", "bounds", "width", "height", "trace", "scheme", "background", "seed",
    "params"]

/-- The value of a field, read if it is given. -/
def orDefault {β : Type} (read : Source → Option β) (default : β) : Option Source → Option β
  | none => some default
  | some source => read source

/-- The configuration of a record. -/
def ofSource? (source : Source) : Option Config := do
  let base := Config.default
  match ← source.fields? fieldNames with
  | [dx, dy, a, b, bounds, width, height, trace, scheme, background, seed, params] =>
    return {
      dx := ← orDefault Source.toString? base.dx dx
      dy := ← orDefault Source.toString? base.dy dy
      a := ← orDefault Source.toFloat? base.a a
      b := ← orDefault Source.toFloat? base.b b
      bounds := ← orDefault Bounds.ofSource? base.bounds bounds
      width := ← orDefault Source.toNat? base.width width
      height := ← orDefault Source.toNat? base.height height
      trace := ← orDefault Source.toBool? base.trace trace
      scheme := ← orDefault Scheme.ofSource? base.scheme scheme
      background := ← orDefault Rgb.ofSource? base.background background
      seed := UInt64.ofNat (← orDefault Source.toNat? base.seed.toNat seed)
      params := ← orDefault (Source.toJson? (Source.depthLimit - 1)) base.params params }
  | _ => none

/-- The configuration of a JSON text. -/
def ofText? (text : String) : Option Config := do ofSource? (← Source.ofText? text)

end Config

end PhasePortrait
