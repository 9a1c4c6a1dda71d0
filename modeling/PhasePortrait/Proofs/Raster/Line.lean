import PhasePortrait.Proofs.Raster.Cells
import PhasePortrait.Raster.Brush

/-!
# Lines

What the stroke of a line is, said without boxes, projections and sets: the pixels whose centre is
at most half the width of a stroke away from some point between two consecutive points of the line
(`Frame.Strokes`). Drawing a line lays its colour once over each of these that the picture has, and
changes nothing else.

**Why.** The point that a centre is projected to is the nearest one of the segment, so comparing with
its distance alone is enough (`Frame.segmentDistance_le_iff`). A centre within half a width of a
point is within the box of the segment widened by as much, so cutting to that box loses no pixel
(`Frame.mem_strokeCells`). What is left depends on the segments and not on their direction or order,
so a line may be drawn backwards.

Lengths are compared by their squares, and nothing is rounded (`PhasePortrait.exactScalar`).
-/

namespace PhasePortrait

/-! ## Lengths -/

/-- Lengths are roots, and a root is at most a length if its square is at most the square of it. -/
theorem Point.length_le_iff {d : Point ℝ} {h : ℝ} (hh : 0 ≤ h) : d.length ≤ h ↔ d.dot d ≤ h ^ 2 :=
  Real.sqrt_le_left hh

/-- The square of the distance of a point from the one that is a part of the way from `a` to `b`. -/
noncomputable def squaredGap (p a b : Point ℝ) (part : ℝ) : ℝ :=
  (p - (a + (b - a).scale part)).dot (p - (a + (b - a).scale part))

/-- The squared gap in coordinates, where it can be computed with. -/
theorem squaredGap_eq (p a b : Point ℝ) (t : ℝ) :
    squaredGap p a b t =
      (p.x - (a.x + (b.x - a.x) * t)) ^ 2 + (p.y - (a.y + (b.y - a.y) * t)) ^ 2 := by
  show (p.x - (a.x + (b.x - a.x) * t)) * (p.x - (a.x + (b.x - a.x) * t)) +
    (p.y - (a.y + (b.y - a.y) * t)) * (p.y - (a.y + (b.y - a.y) * t)) = _
  ring

/-- The square of a gap as a parabola in the part of the way. -/
theorem squaredGap_parabola (p a b : Point ℝ) (t : ℝ) :
    squaredGap p a b t =
      (p - a).dot (p - a) - 2 * t * (p - a).dot (b - a) + t ^ 2 * (b - a).dot (b - a) := by
  rw [squaredGap_eq]
  show _ = ((p.x - a.x) * (p.x - a.x) + (p.y - a.y) * (p.y - a.y)) -
    2 * t * ((p.x - a.x) * (b.x - a.x) + (p.y - a.y) * (b.y - a.y)) +
    t ^ 2 * ((b.x - a.x) * (b.x - a.x) + (b.y - a.y) * (b.y - a.y))
  ring

/-- A segment from its other end is gone through the other way round. -/
theorem squaredGap_swap (p a b : Point ℝ) (t : ℝ) :
    squaredGap p b a t = squaredGap p a b (1 - t) := by
  rw [squaredGap_eq, squaredGap_eq]
  ring

/-- **The projection, moved to the segment, is its nearest point.** -/
theorem squaredGap_nearest {p a b : Point ℝ} (hpos : 0 < (b - a).dot (b - a)) {t : ℝ}
    (hzero : 0 ≤ t) (hone : t ≤ 1) :
    squaredGap p a b (Scalar.clampUnit ((p - a).dot (b - a) / (b - a).dot (b - a))) ≤
      squaredGap p a b t := by
  generalize hfoot : (p - a).dot (b - a) / (b - a).dot (b - a) = foot
  have hdot : (p - a).dot (b - a) = foot * (b - a).dot (b - a) := by
    rw [← hfoot]
    exact (div_mul_cancel₀ _ hpos.ne').symm
  have hnearer := mul_le_mul_of_nonneg_left (Scalar.sq_clampUnit_sub_le foot hzero hone) hpos.le
  rw [squaredGap_parabola, squaredGap_parabola, hdot]
  linarith

/-- On a segment without a length there is one point. -/
theorem squaredGap_of_point {p a b : Point ℝ} (h : (b - a).dot (b - a) = 0) (t : ℝ) :
    squaredGap p a b t = (p - a).dot (p - a) := by
  obtain ⟨hx, hy⟩ : b.x - a.x = 0 ∧ b.y - a.y = 0 := mul_self_add_mul_self_eq_zero.mp h
  rw [squaredGap_eq, hx, hy]
  show _ = (p.x - a.x) * (p.x - a.x) + (p.y - a.y) * (p.y - a.y)
  ring

namespace Frame

/-- **The distance from a segment** is at most a length if some point of the segment is as near. The
distance is that of one point, the projection moved to the segment, and no other point of it is
nearer. -/
theorem segmentDistance_le_iff {p a b : Point ℝ} {h : ℝ} (hh : 0 ≤ h) :
    segmentDistance p a b ≤ h ↔ ∃ t, 0 ≤ t ∧ t ≤ 1 ∧ squaredGap p a b t ≤ h ^ 2 := by
  have hzero : (0.0 : ℝ) = 0 := by norm_num
  unfold segmentDistance
  dsimp only
  split
  next hpoint =>
    have hnone : (b - a).dot (b - a) = 0 := (of_decide_eq_true hpoint).trans hzero
    rw [Point.distance, Point.length_le_iff hh]
    simp only [squaredGap_of_point hnone]
    constructor
    · intro hnear
      exact ⟨0, le_rfl, zero_le_one, hnear⟩
    · rintro ⟨-, -, -, hnear⟩
      exact hnear
  next hlong =>
    have hne : (b - a).dot (b - a) ≠ 0 := fun hnone =>
      hlong (decide_eq_true (hnone.trans hzero.symm))
    have hpos : 0 < (b - a).dot (b - a) :=
      lt_of_le_of_ne (add_nonneg (mul_self_nonneg _) (mul_self_nonneg _)) hne.symm
    rw [Point.distance, Point.length_le_iff hh]
    constructor
    · intro hnear
      exact ⟨_, Scalar.clampUnit_nonneg _, Scalar.clampUnit_le_one _, hnear⟩
    · rintro ⟨t, ht, ht', hnear⟩
      exact (squaredGap_nearest hpos ht ht').trans hnear

/-! ## Strokes -/

/-- **The stroke of a line** covers a pixel: some point of a segment between consecutive points of
the line is within half the width of a trace from the centre of the pixel. -/
def Strokes (points : List (Point ℝ)) (cell : Nat × Nat) : Prop :=
  ∃ a b t, [a, b] <:+: points ∧ 0 ≤ t ∧ t ≤ 1 ∧
    4 * squaredGap (pixelCenter cell) a b t ≤ (traceWidth : ℝ) ^ 2

/-- A line backwards has the same segments, each backwards, and a point of a segment is as far along
it as it was from its end. -/
theorem strokes_reverse {points : List (Point ℝ)} {cell : Nat × Nat} :
    Strokes points.reverse cell ↔ Strokes points cell := by
  have hback : ∀ {line : List (Point ℝ)}, Strokes line cell → Strokes line.reverse cell := by
    rintro line ⟨a, b, t, hsegment, hzero, hone, hnear⟩
    refine ⟨b, a, 1 - t, ?_, by linarith, by linarith, ?_⟩
    · exact List.reverse_infix.mpr hsegment
    · rwa [squaredGap_swap, sub_sub_cancel]
  constructor
  · intro h
    rw [← points.reverse_reverse]
    exact hback h
  · exact hback

/-- What lies within one of a point between `a` and `b` lies between the rounded sides of their box,
widened by one. -/
theorem floor_le_and_le_ceil {a b t : ℝ} {n : Nat} (hzero : 0 ≤ t) (hone : t ≤ 1)
    (hnear : ((n : ℝ) + 1 / 2 - (a + (b - a) * t)) ^ 2 ≤ 1) :
    ⌊min a b - 1⌋ ≤ n ∧ (n : ℤ) ≤ ⌈max a b + 1⌉ := by
  rw [sq_le_one_iff_abs_le_one] at hnear
  obtain ⟨hleft, hright⟩ := floor_le_and_le_ceil_of_near hnear
  have hbelow : min a b ≤ a + (b - a) * t := by
    rcases le_total a b with h | h
    · rw [min_eq_left h]
      nlinarith
    · rw [min_eq_right h]
      nlinarith
  have habove : a + (b - a) * t ≤ max a b := by
    rcases le_total a b with h | h
    · rw [max_eq_right h]
      nlinarith
    · rw [max_eq_left h]
      nlinarith
  constructor
  · exact (Int.floor_mono (sub_le_sub_right hbelow 1)).trans hleft
  · exact hright.trans (Int.ceil_mono (add_le_add_left habove 1))

/-- A centre within one of a point is within one of it in either coordinate. -/
theorem coordinates_near {cell : Nat × Nat} {a b : Point ℝ} {t : ℝ}
    (h : squaredGap (pixelCenter cell) a b t ≤ 1) :
    ((cell.1 : ℝ) + 1 / 2 - (a.x + (b.x - a.x) * t)) ^ 2 ≤ 1 ∧
      ((cell.2 : ℝ) + 1 / 2 - (a.y + (b.y - a.y) * t)) ^ 2 ≤ 1 := by
  have hhalf : (0.5 : ℝ) = 1 / 2 := by norm_num
  have hx : (pixelCenter cell : Point ℝ).x = cell.1 + 1 / 2 := congrArg (_ + ·) hhalf
  have hy : (pixelCenter cell : Point ℝ).y = cell.2 + 1 / 2 := congrArg (_ + ·) hhalf
  rw [squaredGap_eq, hx, hy] at h
  constructor
  · exact (le_add_of_nonneg_right (sq_nonneg _)).trans h
  · exact (le_add_of_nonneg_left (sq_nonneg _)).trans h

/-- **Cutting to a box loses nothing.** The pixels of a segment are all those of the picture that are
within half a width of it. -/
theorem mem_strokeCells {f : Frame ℝ} {a b : Point ℝ} {cell : Nat × Nat} :
    cell ∈ f.strokeCells a b ↔ f.Holds cell ∧ ∃ t, 0 ≤ t ∧ t ≤ 1 ∧
      4 * squaredGap (pixelCenter cell) a b t ≤ (traceWidth : ℝ) ^ 2 := by
  have hhalf : (traceWidth / 2.0 : ℝ) = 1 := by norm_num [traceWidth]
  have hwidth : (traceWidth : ℝ) = 2 := by norm_num [traceWidth]
  have hsquare : ∀ gap : ℝ, 4 * gap ≤ (traceWidth : ℝ) ^ 2 ↔ gap ≤ 1 ^ 2 := by
    intro gap
    rw [hwidth]
    constructor <;> intro h <;> linarith
  unfold strokeCells
  rw [List.mem_filter, mem_cellsIn, decide_eq_true_eq, hhalf, segmentDistance_le_iff zero_le_one]
  simp only [hsquare]
  constructor
  · rintro ⟨⟨hholds, -⟩, hnear⟩
    exact ⟨hholds, hnear⟩
  · rintro ⟨hholds, t, hzero, hone, hgap⟩
    refine ⟨⟨hholds, ?_⟩, t, hzero, hone, hgap⟩
    obtain ⟨hx, hy⟩ := coordinates_near (hgap.trans_eq (one_pow 2))
    simp only [Point.lowest, Point.highest, Scalar.smaller_eq_min, Scalar.larger_eq_max]
    exact ⟨floor_le_and_le_ceil hzero hone hx, floor_le_and_le_ceil hzero hone hy⟩

/-! ## Drawing -/

/-- The segments of a line are its pairs of consecutive points. -/
theorem mem_zip_tail {β : Type} {points : List β} {a b : β} :
    (a, b) ∈ points.zip points.tail ↔ [a, b] <:+: points := by
  induction points with
  | nil => simp
  | cons first rest ih =>
    cases rest with
    | nil => simp [List.infix_cons_iff]
    | cons second rest =>
      rw [List.tail_cons, List.zip_cons_cons, List.mem_cons, List.infix_cons_iff,
        List.cons_prefix_cons, List.cons_prefix_cons, ← ih]
      simp

/-- The pixels of a line are those of its segments, taken together. -/
theorem mem_lineCells {f : Frame ℝ} {points : List (Point ℝ)} {cell : Nat × Nat} :
    cell ∈ f.lineCells points ↔ f.Holds cell ∧ Strokes points cell := by
  unfold lineCells
  rw [List.mem_flatMap]
  constructor
  · rintro ⟨⟨a, b⟩, hsegment, hcell⟩
    obtain ⟨hholds, t, hnear⟩ := mem_strokeCells.mp hcell
    exact ⟨hholds, a, b, t, mem_zip_tail.mp hsegment, hnear⟩
  · rintro ⟨hholds, a, b, t, hsegment, hnear⟩
    exact ⟨(a, b), mem_zip_tail.mpr hsegment, mem_strokeCells.mpr ⟨hholds, t, hnear⟩⟩

section Sets

variable {α : Type} [Scalar α]

/-- The places that a line is drawn over: those that its strokes cover, each of them once. -/
def lineSet (f : Frame α) (points : List (Point α)) : List (Nat × Nat) :=
  (Std.HashSet.ofList (f.lineCells points)).toList

theorem mem_lineSet {f : Frame α} {points : List (Point α)} {cell : Nat × Nat} :
    cell ∈ f.lineSet points ↔ cell ∈ f.lineCells points := by
  rw [lineSet, Std.HashSet.mem_toList, Std.HashSet.mem_ofList, List.contains_iff_mem]

/-- A line is drawn over a set, so a place where two of its segments meet is drawn over once. -/
theorem nodup_lineSet (f : Frame α) (points : List (Point α)) : (f.lineSet points).Nodup :=
  Std.HashSet.distinct_toList.imp fun hne => by simpa using hne

/-- A line painted place by place: the colour is laid over its own pixels and over no others. -/
theorem get?_drawLine (f : Frame α) (points : List (Point α)) (color : Rgba α)
    (cell : Nat × Nat) :
    (f.drawLine points color).get? cell =
      if cell ∈ f.lineCells points then (f.get? cell).map (laid color) else f.get? cell := by
  have hget := (paints_blend color).get?_foldl (f.nodup_lineSet points) f cell
  simp only [mem_lineSet] at hget
  exact hget

/-- Lines of the same places are drawn alike. -/
theorem drawLine_congr {f : Frame α} {points others : List (Point α)}
    (h : ∀ cell, cell ∈ f.lineCells points ↔ cell ∈ f.lineCells others) (color : Rgba α) :
    f.drawLine points color = f.drawLine others color := by
  have hmem : ∀ cell, cell ∈ f.lineSet points ↔ cell ∈ f.lineSet others := by
    intro cell
    rw [mem_lineSet, mem_lineSet, h cell]
  apply (paints_blend color).foldl_eq (f.nodup_lineSet points) (f.nodup_lineSet others)
  · intro cell _ hin hout
    exact absurd ((hmem cell).mp hin) hout
  · intro cell _ hin hout
    exact absurd ((hmem cell).mpr hin) hout

end Sets

/-- **Drawing a line lays its colour once over each pixel of its stroke.** The picture keeps its
sides, and has a pixel at each of its places if it had; a pixel whose centre is within half the width
of a trace from some point of the line has the colour laid over it once, however many segments pass
there, and every other pixel stays as it was. The same line from its other end makes the same
picture. -/
theorem drawLine_covers_stroke (f : Frame ℝ) (points : List (Point ℝ)) (color : Rgba ℝ) :
    SameShape (f.drawLine points color) f ∧
    (f.IsFull → ∀ cell, f.Holds cell → ∃ c, f.get? cell = some c) ∧
    (∀ cell, Strokes points cell →
      (f.drawLine points color).get? cell =
        (f.get? cell).map fun c => c.toward color.rgb (Scalar.clampUnit color.a)) ∧
    (∀ cell, ¬Strokes points cell → (f.drawLine points color).get? cell = f.get? cell) ∧
    f.drawLine points.reverse color = f.drawLine points color := by
  refine ⟨sameShape_drawLine f points color, fun hfull _ => exists_get? hfull, ?_, ?_, ?_⟩
  · intro cell hstroke
    rw [get?_drawLine]
    split
    next => rfl
    next hcell =>
      -- A place of the stroke that is left out is none of the picture.
      have houtside : ¬f.Holds cell := fun hholds => hcell (mem_lineCells.mpr ⟨hholds, hstroke⟩)
      have hnone : f.index? cell = none := if_neg houtside
      simp [get?, hnone]
  · intro cell hstroke
    rw [get?_drawLine, if_neg]
    intro hcell
    exact hstroke (mem_lineCells.mp hcell).2
  · apply drawLine_congr
    intro cell
    rw [mem_lineCells, mem_lineCells, strokes_reverse]

end Frame

end PhasePortrait
