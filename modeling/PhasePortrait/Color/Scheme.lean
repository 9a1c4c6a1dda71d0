import PhasePortrait.Color.Wheel
import PhasePortrait.Setup.Error
import PhasePortrait.Text.Blank

/-!
# Colour schemes

How a particle is coloured by the direction and the speed it moves at. All schemes but one walk the
colour wheel at full saturation and half lightness; the opacity is the particle's own.
-/

namespace PhasePortrait

/-- A colour for a direction, an opacity and a speed. -/
abbrev ColorMap (α : Type) := α → α → α → Rgba α

/-- The schemes there are. -/
inductive Scheme where
  | ocean
  | fire
  | rainbow
  | grayscale
  | velocity
deriving DecidableEq, Repr

namespace Scheme

/-- All of them, in the order in which they are listed. -/
def all : List Scheme := [ocean, fire, rainbow, grayscale, velocity]

/-- The scheme of a configuration that names none. -/
def default : Scheme := rainbow

/-- The name of a scheme. -/
def name : Scheme → String
  | ocean => "ocean"
  | fire => "fire"
  | rainbow => "rainbow"
  | grayscale => "grayscale"
  | velocity => "velocity"

/-- What a scheme shows. -/
def description : Scheme → String
  | ocean => "cyan to blue by direction"
  | fire => "red to yellow by direction"
  | rainbow => "full hue wheel by direction"
  | grayscale => "brightness by direction"
  | velocity => "hue by speed"

/-- The scheme of exactly this name. -/
def ofExactName? (name : String) : Option Scheme := all.find? fun s => s.name == name

/-- The scheme of a name in any case and with blanks around it. -/
def ofName {α : Type} (name : String) : Except (SetupError α) Scheme :=
  let wanted := String.ofList ((Text.trim name.toList).map Char.toLower)
  match ofExactName? wanted with
  | some scheme => .ok scheme
  | none => .error (.unknownScheme name)

variable {α : Type} [Scalar α] [Elementary α]

/-- The opaque colour for a direction and a speed. A gray is one of 256. -/
def tint (scheme : Scheme) (angle speed : α) : Rgb α :=
  match scheme with
  | ocean => .ofHsl (180.0 + angle * 60.0 / Elementary.pi) 1.0 0.5
  | fire => .ofHsl (angle * 60.0 / Elementary.pi) 1.0 0.5
  | rainbow => .ofHsl (angle * 180.0 / Elementary.pi) 1.0 0.5
  | grayscale =>
    let level := Scalar.floor (Scalar.abs (Elementary.sin angle) * 255.0) / 255.0
    ⟨level, level, level⟩
  | velocity => .ofHsl (speed * 240.0) 1.0 0.5

/-- The colours of a scheme. -/
def color (scheme : Scheme) : ColorMap α := fun angle alpha speed =>
  (scheme.tint angle speed).withAlpha (Scalar.clampUnit alpha)

end Scheme

end PhasePortrait
