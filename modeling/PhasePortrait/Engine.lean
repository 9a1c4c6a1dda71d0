import PhasePortrait.Binary64.Text
import PhasePortrait.Report
import PhasePortrait.Scene
import PhasePortrait.Setup.Error

/-!
# Engines

What a run drives: something that is stepped, resized and looked at. A failure of the field is part
of the report of a step and never stops an engine.
-/

namespace PhasePortrait

/-- The states of an engine, by what can be done with them. -/
class Engine (σ : Type) where
  /-- One tick. -/
  step : σ → Report × σ
  /-- What there is to be drawn. -/
  scene : σ → Scene Float
  /-- Another size of the canvas. -/
  resize : σ → (width height : Nat) → Except (SetupError Float) σ
  /-- Empties the traces. -/
  clearTraces : σ → σ
  /-- The parameters it runs with. -/
  params : σ → Json
  /-- What its parameters may be. -/
  schema : σ → Json

end PhasePortrait
