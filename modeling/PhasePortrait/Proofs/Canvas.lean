import Mathlib.Analysis.SpecialFunctions.Complex.Arg
import Mathlib.Analysis.SpecialFunctions.Pow.Real
import PhasePortrait.Flow
import PhasePortrait.Proofs.Exact

/-!
# Points and their pixels

A rectangle of the plane and a canvas are two views of the same thing. Along each axis there is one
map, `rescale`: it takes a length inside one extent to the length that is the same share of another.
The column of a point is what lies to the left of it, rescaled; its row is what lies **above** it,
rescaled; and the way back is the same map with the extents exchanged. So the two maps undo each
other (`Bounds.ofPixel_toPixel`, `Bounds.toPixel_ofPixel`), and a point is in the rectangle exactly
where its pixel is on the canvas, all four edges included (`Bounds.contains_iff_isOnCanvas`).

The extent of the canvas is a factor of the map, and nothing else of a scene depends on it. So the
scene on another canvas is the same scene, stretched (`Flow.view_stretch`).

Nothing is rounded here (`exactScalar`, `exactElementary`).
-/

namespace PhasePortrait

/-- The elementary functions of the reals. -/
noncomputable instance exactElementary : Elementary ℝ where
  pi := Real.pi
  sin := Real.sin
  cos := Real.cos
  tan := Real.tan
  exp := Real.exp
  pow := Real.rpow
  hypot x y := √(x * x + y * y)
  atan2 y x := Complex.arg ⟨x, y⟩

/-! ## One axis -/

/-- The length that is the same share of `target` as `length` is of `source`. -/
noncomputable def rescale (source target length : ℝ) : ℝ := length / source * target

section Axis

variable {source target : ℝ}

/-- The way back from one extent to the other is the same map with the two exchanged. -/
theorem rescale_rescale (hsource : 0 < source) (htarget : 0 < target) (length : ℝ) :
    rescale target source (rescale source target length) = length := by
  unfold rescale
  rw [mul_div_cancel_right₀ _ htarget.ne', div_mul_cancel₀ _ hsource.ne']

theorem rescale_le_rescale (hsource : 0 < source) (htarget : 0 < target) {x y : ℝ} :
    rescale source target x ≤ rescale source target y ↔ x ≤ y := by
  unfold rescale
  rw [mul_le_mul_iff_left₀ htarget, div_le_div_iff_of_pos_right hsource]

/-- What lies inside one extent is rescaled to what lies inside the other. -/
theorem rescale_mem_iff (hsource : 0 < source) (htarget : 0 < target) {x : ℝ} :
    (0 ≤ rescale source target x ∧ rescale source target x ≤ target) ↔ 0 ≤ x ∧ x ≤ source := by
  have hzero : rescale source target 0 = 0 := by rw [rescale, zero_div, zero_mul]
  have hwhole : rescale source target source = target := by
    rw [rescale, div_self hsource.ne', one_mul]
  have hlow := rescale_le_rescale hsource htarget (x := 0) (y := x)
  have hhigh := rescale_le_rescale hsource htarget (x := x) (y := source)
  rw [hzero] at hlow
  rw [hwhole] at hhigh
  exact and_congr hlow hhigh

/-- A multiple of the target is a multiple of what is rescaled to it. This is all that a canvas of
another size changes. -/
theorem rescale_mul (source k target x : ℝ) :
    rescale source (k * target) x = k * rescale source target x :=
  mul_left_comm _ _ _

end Axis

/-! ## Rectangles and canvases -/

/-- Whether a place is on a canvas; its edges belong to it. -/
def Point.IsOnCanvas (width height : Nat) (q : Point ℝ) : Prop :=
  (0 ≤ q.x ∧ q.x ≤ width) ∧ 0 ≤ q.y ∧ q.y ≤ height

/-- The point with its coordinates multiplied. -/
def Point.stretch (k m : ℝ) (p : Point ℝ) : Point ℝ := ⟨k * p.x, m * p.y⟩

namespace Bounds

variable {b : Bounds ℝ}

/-- A valid rectangle has a width and a height; over the reals nothing else can be wrong with it. -/
theorem isValid_iff : b.isValid = true ↔ b.xMin < b.xMax ∧ b.yMin < b.yMax := by
  simp [isValid, Scalar.isFinite]

/-- So the map along either axis may divide by what it rescales from. -/
theorem width_pos (hb : b.isValid = true) : 0 < b.width := sub_pos.mpr (isValid_iff.mp hb).1

theorem height_pos (hb : b.isValid = true) : 0 < b.height := sub_pos.mpr (isValid_iff.mp hb).2

theorem contains_iff {p : Point ℝ} :
    b.contains p = true ↔ (b.xMin ≤ p.x ∧ p.x ≤ b.xMax) ∧ b.yMin ≤ p.y ∧ p.y ≤ b.yMax := by
  simp [contains, and_assoc]

/-- Rows are counted from the upper edge. -/
theorem toPixel_eq (b : Bounds ℝ) (p : Point ℝ) (width height : Nat) :
    b.toPixel p width height =
      ⟨rescale b.width width (p.x - b.xMin), rescale b.height height (b.yMax - p.y)⟩ := rfl

/-- The way back takes columns and rows for lengths inside the canvas. Rows go down from the upper
edge. -/
theorem ofPixel_eq (b : Bounds ℝ) (q : Point ℝ) (width height : Nat) :
    b.ofPixel q width height =
      ⟨b.xMin + rescale width b.width q.x, b.yMax - rescale height b.height q.y⟩ := rfl

section Canvas

variable {width height : Nat}

/-- The pixel of a point leads back to the point, on the canvas or not. -/
theorem ofPixel_toPixel (hb : b.isValid = true) (hwidth : 0 < width) (hheight : 0 < height)
    (p : Point ℝ) : b.ofPixel (b.toPixel p width height) width height = p := by
  rw [toPixel_eq, ofPixel_eq, rescale_rescale (width_pos hb) (Nat.cast_pos.mpr hwidth),
    rescale_rescale (height_pos hb) (Nat.cast_pos.mpr hheight), add_sub_cancel, sub_sub_cancel]

theorem toPixel_ofPixel (hb : b.isValid = true) (hwidth : 0 < width) (hheight : 0 < height)
    (q : Point ℝ) : b.toPixel (b.ofPixel q width height) width height = q := by
  rw [ofPixel_eq, toPixel_eq, add_sub_cancel_left, sub_sub_cancel,
    rescale_rescale (Nat.cast_pos.mpr hwidth) (width_pos hb),
    rescale_rescale (Nat.cast_pos.mpr hheight) (height_pos hb)]

/-- Both axes at once: what lies inside the rectangle is what is rescaled into the canvas. -/
theorem contains_iff_isOnCanvas (hb : b.isValid = true) (hwidth : 0 < width)
    (hheight : 0 < height) (p : Point ℝ) :
    b.contains p = true ↔ (b.toPixel p width height).IsOnCanvas width height := by
  have hcolumn : (b.xMin ≤ p.x ∧ p.x ≤ b.xMax) ↔ 0 ≤ p.x - b.xMin ∧ p.x - b.xMin ≤ b.width := by
    rw [sub_nonneg, Bounds.width, sub_le_sub_iff_right]
  -- The lower edge bounds what lies above the point.
  have hrow : (b.yMin ≤ p.y ∧ p.y ≤ b.yMax) ↔ 0 ≤ b.yMax - p.y ∧ b.yMax - p.y ≤ b.height := by
    rw [sub_nonneg, Bounds.height, sub_le_sub_iff_left, and_comm]
  rw [contains_iff, hcolumn, hrow, ← rescale_mem_iff (width_pos hb) (Nat.cast_pos.mpr hwidth),
    ← rescale_mem_iff (height_pos hb) (Nat.cast_pos.mpr hheight)]
  rfl

/-- Further to the right is a larger column. -/
theorem column_le_iff (hb : b.isValid = true) (hwidth : 0 < width) {p q : Point ℝ} :
    (b.toPixel p width height).x ≤ (b.toPixel q width height).x ↔ p.x ≤ q.x := by
  rw [toPixel_eq, toPixel_eq, rescale_le_rescale (width_pos hb) (Nat.cast_pos.mpr hwidth),
    sub_le_sub_iff_right]

/-- Further up is a smaller row. -/
theorem row_le_iff (hb : b.isValid = true) (hheight : 0 < height) {p q : Point ℝ} :
    (b.toPixel p width height).y ≤ (b.toPixel q width height).y ↔ q.y ≤ p.y := by
  rw [toPixel_eq, toPixel_eq, rescale_le_rescale (height_pos hb) (Nat.cast_pos.mpr hheight),
    sub_le_sub_iff_left]

variable {width' height' : Nat} {k m : ℝ}

/-- On a canvas of other sizes the pixel of a point is moved, along each axis by the factor of that
axis. -/
theorem toPixel_stretch (hwidth : (width' : ℝ) = k * width) (hheight : (height' : ℝ) = m * height)
    (b : Bounds ℝ) (p : Point ℝ) :
    b.toPixel p width' height' = (b.toPixel p width height).stretch k m := by
  rw [toPixel_eq, toPixel_eq, hwidth, hheight, rescale_mul, rescale_mul]
  rfl

end Canvas

end Bounds

/-! ## Scenes -/

/-- The scene on another canvas, with every place on it multiplied. Opacities and colours stay. -/
def Scene.stretch (s : Scene ℝ) (k m : ℝ) (width height : Nat) : Scene ℝ :=
  { s with
    width
    height
    sprites := s.sprites.map fun sprite => { sprite with position := sprite.position.stretch k m }
    traces := s.traces.map fun trace => trace.map (Point.stretch k m) }

/-- **A scene on another canvas** is the scene on the first one, stretched. Opacities and colours
come from the particles, so the canvas is seen in the places only. -/
theorem Flow.view_stretch {width height width' height' : Nat} {k m : ℝ}
    (hwidth : (width' : ℝ) = k * width) (hheight : (height' : ℝ) = m * height)
    (population : Population ℝ) (colors : ColorMap ℝ) (background : Rgb ℝ) :
    Flow.view population colors width' height' background =
      (Flow.view population colors width height background).stretch k m width' height' := by
  have hplaces : ∀ p, population.bounds.toPixel p width' height' =
      (population.bounds.toPixel p width height).stretch k m :=
    Bounds.toPixel_stretch hwidth hheight population.bounds
  have hsprites : Flow.sprite population.bounds colors width' height' = fun s =>
      { Flow.sprite population.bounds colors width height s with
        position := (population.bounds.toPixel s.position width height).stretch k m } := by
    funext s
    simp only [Flow.sprite, hplaces]
  simp only [Flow.view, Scene.stretch, List.map_map, Function.comp_def, hsprites, hplaces]
  rfl

/-- **Points and pixels are two views of a rectangle.** In a valid rectangle and on a canvas that is
not empty the two maps undo each other, the points of the rectangle are the ones whose pixels are on
the canvas, columns grow to the right and rows grow downwards. On a canvas whose sizes are multiples
of these two, every pixel is multiplied by the same factors, and so is every place of a scene. -/
theorem Bounds.pixels_mirror_points {b : Bounds ℝ} (hb : b.isValid = true) {width height : Nat}
    (hwidth : 0 < width) (hheight : 0 < height) :
    (∀ p, b.ofPixel (b.toPixel p width height) width height = p) ∧
    (∀ q, b.toPixel (b.ofPixel q width height) width height = q) ∧
    (∀ p, b.contains p = true ↔ (b.toPixel p width height).IsOnCanvas width height) ∧
    (∀ p q, p.x ≤ q.x ↔ (b.toPixel p width height).x ≤ (b.toPixel q width height).x) ∧
    (∀ p q, p.y ≤ q.y ↔ (b.toPixel q width height).y ≤ (b.toPixel p width height).y) ∧
    ∀ (k m : ℝ) (width' height' : Nat), (width' : ℝ) = k * width → (height' : ℝ) = m * height →
      (∀ p, b.toPixel p width' height' = (b.toPixel p width height).stretch k m) ∧
      ∀ (population : Population ℝ) (colors : ColorMap ℝ) (background : Rgb ℝ),
        Flow.view { population with bounds := b } colors width' height' background =
          (Flow.view { population with bounds := b } colors width height background).stretch k m
            width' height' := by
  refine ⟨ofPixel_toPixel hb hwidth hheight, toPixel_ofPixel hb hwidth hheight,
    contains_iff_isOnCanvas hb hwidth hheight, fun p q => (column_le_iff hb hwidth).symm,
    fun p q => (row_le_iff hb hheight).symm, fun k m width' height' hwider hhigher => ?_⟩
  exact ⟨toPixel_stretch hwider hhigher b,
    fun population => Flow.view_stretch hwider hhigher { population with bounds := b }⟩

/-- The upper right corner of a rectangle is the last column of the first row, and a canvas twice as
wide and half as high has it twice as far to the right. -/
theorem Bounds.corner_mirrored :
    let b : Bounds ℝ := ⟨-2, 3, 1, 4⟩
    b.isValid = true ∧ b.toPixel ⟨3, 4⟩ 640 480 = ⟨640, 0⟩ ∧ b.ofPixel ⟨640, 0⟩ 640 480 = ⟨3, 4⟩ ∧
      b.toPixel ⟨3, 4⟩ 1280 240 = ⟨1280, 0⟩ := by
  intro b
  have hb : b.isValid = true := isValid_iff.mpr ⟨by norm_num, by norm_num⟩
  obtain ⟨hback, -, -, -, -, hstretch⟩ := pixels_mirror_points hb
    (by norm_num : 0 < 640) (by norm_num : 0 < 480)
  have hcorner : b.toPixel ⟨3, 4⟩ 640 480 = ⟨640, 0⟩ := by
    simp only [Bounds.toPixel, Bounds.width, Bounds.height, b]
    norm_num
  refine ⟨hb, hcorner, ?_, ?_⟩
  · rw [← hcorner]
    exact hback _
  · rw [(hstretch 2 (1 / 2) 1280 240 (by norm_num) (by norm_num)).1, hcorner]
    simp only [Point.stretch]
    norm_num

end PhasePortrait
