import PhasePortrait.Proofs.Raster.Cells
import PhasePortrait.Raster.Brush

/-!
# Sprites

Drawing a sprite visits the pixels of a box around it only. The plain way to draw one is to visit
every pixel of the picture and to look at the distance of its centre
(`Frame.drawSpriteEverywhere`). Both make the same picture, for a sprite anywhere on the canvas,
across its sides or beyond them.

**Why.** A pixel as far as the glow reaches, or farther, is left as it is. The sides of the box are
the reach of the glow in both coordinates, rounded outwards, and the centre of a pixel is half a
pixel off the corner that the box is measured with, so each pixel that is nearer is a place of the
box (`Frame.mem_spriteCells_of_near`), which has no place twice.

Distances are exact (`PhasePortrait.exactScalar`).
-/

namespace PhasePortrait

/-- The distance between two points is at least that of their coordinates. -/
theorem Point.abs_sub_le_distance (p q : Point ℝ) :
    |p.x - q.x| ≤ p.distance q ∧ |p.y - q.y| ≤ p.distance q := by
  have hdistance : p.distance q =
      Real.sqrt ((p.x - q.x) * (p.x - q.x) + (p.y - q.y) * (p.y - q.y)) := rfl
  rw [hdistance]
  constructor <;> apply Real.abs_le_sqrt <;> nlinarith [sq_nonneg (p.x - q.x), sq_nonneg (p.y - q.y)]

namespace Frame

variable {α : Type}

/-- All places of a picture, row by row. -/
def places (f : Frame α) : List (Nat × Nat) :=
  (List.range f.height).flatMap fun y => (List.range f.width).map fun x => (x, y)

theorem mem_places {f : Frame α} {cell : Nat × Nat} : cell ∈ f.places ↔ f.Holds cell := by
  obtain ⟨x, y⟩ := cell
  simp only [places, List.mem_flatMap, List.mem_map, List.mem_range, Prod.mk.injEq, Holds]
  constructor
  · rintro ⟨row, hrow, column, hcolumn, rfl, rfl⟩
    exact ⟨hcolumn, hrow⟩
  · rintro ⟨hcolumn, hrow⟩
    exact ⟨y, hrow, x, hcolumn, rfl, rfl⟩

variable [Scalar α]

/-- The distance of the centre of a pixel from a sprite. -/
def gap (sprite : Sprite α) (cell : Nat × Nat) : α :=
  (pixelCenter cell).distance sprite.position

/-- The places that drawing a sprite visits, in their order. -/
def spriteCells (f : Frame α) (sprite : Sprite α) : List (Nat × Nat) :=
  let p := sprite.position
  f.cellsIn ⟨p.x - glowRadius, p.y - glowRadius⟩ ⟨p.x + glowRadius, p.y + glowRadius⟩

/-- What drawing a sprite does at a place that it visits. -/
def visit (sprite : Sprite α) (f : Frame α) (cell : Nat × Nat) : Frame α :=
  f.shade sprite.color (gap sprite cell) cell

/-- The loops over the box of a sprite, as one fold over its places. -/
theorem drawSprite_eq (f : Frame α) (sprite : Sprite α) :
    f.drawSprite sprite = (f.spriteCells sprite).foldl (visit sprite) f :=
  rfl

/-- **The plain way to draw a sprite.** Every pixel of the picture is visited. The colour of the
sprite is laid over it if it is within the dot, and once more, by what is left of the glow at its
distance, if it is within the glow. -/
def drawSpriteEverywhere (f : Frame α) (sprite : Sprite α) : Frame α :=
  f.places.foldl
    (fun f cell =>
      let d := (pixelCenter cell).distance sprite.position
      let dotted := if d ≤ dotRadius then f.blend sprite.color cell else f
      if d < glowRadius then
        dotted.blend { sprite.color with a := sprite.color.a * (1.0 - d / glowRadius) } cell
      else dotted)
    f

/-- What a pixel looks like after a sprite of a colour was drawn at a distance from it. -/
def lit (color : Rgba α) (distance : α) (c : Rgb α) : Rgb α :=
  let dotted := if distance ≤ dotRadius then laid color c else c
  if distance < glowRadius then
    laid { color with a := color.a * (1.0 - distance / glowRadius) } dotted
  else dotted

/-- The box visits no place twice. Otherwise the glow would be laid over a pixel more than once. -/
theorem nodup_spriteCells (f : Frame α) (sprite : Sprite α) : (f.spriteCells sprite).Nodup :=
  nodup_cellsIn f _ _

/-- A visit lays the colour over the pixel of its place, as far as the dot and the glow reach it. It
depends on the place by its distance alone. -/
theorem paints_visit (sprite : Sprite α) :
    Paints (visit sprite) fun cell => lit sprite.color (gap sprite cell) where
  shape f cell := sameShape_shade f sprite.color _ cell
  pixels f cell i := by
    have hblend (g : Frame α) (color : Rgba α) := (paints_blend color).pixels g cell i
    by_cases hi : f.index? cell = some i
    · have hon (color : Rgba α) : (f.blend color cell).index? cell = some i := by
        rwa [(sameShape_blend f color cell).index?_eq]
      rw [if_pos hi]
      unfold visit shade lit
      dsimp only
      split <;> split <;> simp [hblend, hi, hon, Function.comp_def]
    · have hoff (color : Rgba α) : (f.blend color cell).index? cell ≠ some i := by
        rwa [(sameShape_blend f color cell).index?_eq]
      rw [if_neg hi]
      unfold visit shade
      dsimp only
      split <;> split <;> simp [hblend, hi, hoff]

/-! ## The reach of the glow -/

/-- Beyond the glow nothing changes, as the dot is smaller. -/
theorem lit_of_far {color : Rgba ℝ} {d : ℝ} (hfar : glowRadius ≤ d) : lit color d = id := by
  have hdot : (dotRadius : ℝ) < glowRadius := by norm_num [dotRadius, glowRadius]
  funext c
  unfold lit
  rw [if_neg (not_lt.mpr hfar), if_neg (not_le.mpr (hdot.trans_le hfar))]
  rfl

/-- **The box holds the glow.** A place of the picture whose centre is nearer than the reach of the
glow is visited. -/
theorem mem_spriteCells_of_near {f : Frame ℝ} {sprite : Sprite ℝ} {cell : Nat × Nat}
    (hholds : f.Holds cell) (hnear : gap sprite cell < glowRadius) :
    cell ∈ f.spriteCells sprite := by
  have hhalf : (0.5 : ℝ) = 1 / 2 := by norm_num
  obtain ⟨hx, hy⟩ := Point.abs_sub_le_distance (pixelCenter cell) sprite.position
  have hcolumn := hx.trans hnear.le
  have hrow := hy.trans hnear.le
  simp only [pixelCenter, hhalf] at hcolumn hrow
  exact mem_cellsIn.mpr
    ⟨hholds, floor_le_and_le_ceil_of_near hcolumn, floor_le_and_le_ceil_of_near hrow⟩

/-- **Cutting to the box of a sprite loses nothing.** Drawing a sprite makes the picture that the
plain way makes. It visits places of the picture only. A pixel whose centre is as far from the
sprite as the glow reaches, or farther, stays as it was; each that is nearer is visited once, and
has the colour laid over it as far as dot and glow reach it. -/
theorem drawSprite_eq_everywhere (f : Frame ℝ) (sprite : Sprite ℝ) :
    f.drawSprite sprite = f.drawSpriteEverywhere sprite ∧
    f.drawSprite sprite = (f.spriteCells sprite).foldl (visit sprite) f ∧
    (∀ cell ∈ f.spriteCells sprite, f.Holds cell) ∧
    (∀ cell, glowRadius ≤ gap sprite cell →
      (f.drawSprite sprite).get? cell = f.get? cell) ∧
    ∀ cell, f.Holds cell → gap sprite cell < glowRadius →
      (f.spriteCells sprite).count cell = 1 ∧
      (f.drawSprite sprite).get? cell =
        (f.get? cell).map (lit sprite.color (gap sprite cell)) := by
  have hpaints := paints_visit sprite
  have hnodup := f.nodup_spriteCells sprite
  have hholds : ∀ cell ∈ f.spriteCells sprite, f.Holds cell := fun cell hcell =>
    (mem_cellsIn.mp hcell).1
  have hget := hpaints.get?_foldl hnodup f
  refine ⟨?_, drawSprite_eq f sprite, hholds, ?_, ?_⟩
  · apply hpaints.foldl_eq hnodup (nodup_places List.nodup_range List.nodup_range)
    · intro cell hcell _ hout
      exact absurd (mem_places.mpr hcell) hout
    · intro cell hcell _ hout
      apply lit_of_far
      by_contra hnear
      exact hout (mem_spriteCells_of_near hcell (not_le.mp hnear))
  · intro cell hfar
    rw [drawSprite_eq, hget, lit_of_far hfar, Option.map_id_fun, id_eq, ite_self]
  · intro cell hcell hnear
    have hmem := mem_spriteCells_of_near hcell hnear
    refine ⟨List.count_eq_one_of_mem hnodup hmem, ?_⟩
    rw [drawSprite_eq, hget, if_pos hmem]

end Frame

end PhasePortrait
