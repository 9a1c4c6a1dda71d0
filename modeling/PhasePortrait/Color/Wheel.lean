import PhasePortrait.Color.Basic

/-!
# The colour wheel

Colours by hue, saturation and lightness. The hue is an angle in degrees and goes around; the other
two are moved into `[0, 1]`.
-/

namespace PhasePortrait.Rgb

variable {α : Type} [Scalar α]

/-- The six sectors of the wheel, over the strongest part and the one that rises or falls. -/
def sector (index : Nat) (strong ramp : α) : Rgb α :=
  match index with
  | 0 => ⟨strong, ramp, 0.0⟩
  | 1 => ⟨ramp, strong, 0.0⟩
  | 2 => ⟨0.0, strong, ramp⟩
  | 3 => ⟨0.0, ramp, strong⟩
  | 4 => ⟨ramp, 0.0, strong⟩
  | _ => ⟨strong, 0.0, ramp⟩

/-- The colour of a hue, a saturation and a lightness. A hue that is not finite counts as zero. -/
def ofHsl (hue saturation lightness : α) : Rgb α :=
  let h : α := if Scalar.isFinite hue then Scalar.remainder hue 360.0 else 0.0
  let s := Scalar.clampUnit saturation
  let l := Scalar.clampUnit lightness
  let chroma := (1.0 - Scalar.abs (2.0 * l - 1.0)) * s
  let position := h / 60.0
  let ramp := chroma * (1.0 - Scalar.abs (Scalar.remainder position 2.0 - 1.0))
  let c := sector (Scalar.truncate position).toNat chroma ramp
  let m := l - chroma / 2.0
  ⟨c.r + m, c.g + m, c.b + m⟩

end PhasePortrait.Rgb
