import PhasePortrait.Json.Print
import PhasePortrait.Json.Record
import PhasePortrait.Scalar

/-!
# Random draws

Every random choice of a run is drawn from one generator, in a fixed order, so a run is determined
by its seed. The generator is a word of 64 bits that is shifted onto itself three times per draw;
zero would stay zero, so a zero seed stands for a fixed other one.

A `Draw` is a computation that takes the generator along.
-/

namespace PhasePortrait

/-- The state of the random draws. -/
structure Generator where
  state : UInt64
deriving DecidableEq, Repr

namespace Generator

/-- What a seed of zero stands for. -/
def zeroSeed : UInt64 := 0x9E3779B97F4A7C15

/-- The generator of a seed. -/
def ofSeed (seed : UInt64) : Generator := ⟨if seed = 0 then zeroSeed else seed⟩

/-- The word after a word: shifted by 13 to the left, by 7 to the right and by 17 to the left, each
time combined bit by bit with what was shifted. -/
def advance (s : UInt64) : UInt64 :=
  let s := s ^^^ (s <<< 13)
  let s := s ^^^ (s >>> 7)
  s ^^^ (s <<< 17)

/-- The generator as JSON. -/
def toJson (g : Generator) : Json := .ofMembers [("state", .natural g.state.toNat)]

/-- The generator of a JSON text: a record with the field `state`, a word. -/
def ofText? (text : String) : Option Generator := do
  let fields ← (← Json.Source.ofText? text).fields? ["state"]
  match fields with
  | [some state] => return ⟨UInt64.ofNat (← state.toNat?)⟩
  | _ => none

end Generator

/-- A computation that draws. -/
abbrev Draw := StateM Generator

namespace Draw

/-- The next word. -/
def word : Draw UInt64 := fun g =>
  let next := Generator.advance g.state
  (next, ⟨next⟩)

/-- A number from `0` up to but not `1`, of the upper 53 bits of a word. -/
def unit {α : Type} [Scalar α] : Draw α := do
  let w ← word
  return ((w >>> 11).toNat : α) * (1.0 / ((Nat.pow 2 53 : Nat) : α))

/-- A number from `low` up to but not `high`. Where rounding ends at or beyond `high`, or at no
number, `low` is taken. -/
def between {α : Type} [Scalar α] (low high : α) : Draw α := do
  let u ← unit
  let v := low + u * (high - low)
  return if v < high then v else low

/-- A whole number below `bound`, of the upper 32 bits of a word. Below zero there is none: zero is
taken and nothing is drawn. -/
def below (bound : Nat) : Draw Nat :=
  if bound = 0 then return 0
  else do
    let w ← word
    return (w >>> 32).toNat % bound

/-- A list of `n` draws. -/
def times {β : Type} (n : Nat) (draw : Draw β) : Draw (List β) :=
  (List.replicate n ()).mapM fun _ => draw

end Draw

end PhasePortrait
