import PhasePortrait.Proofs.Raster.Line
import PhasePortrait.Proofs.Raster.Sprite

/-!
# Marks

All that drawing does to the pixels of a picture is to wash every one of them and then to lay one
colour after another over one place after another. Such a colour at its place is a **mark**: a
sprite leaves up to two of them on each place that it visits, and a line one on each place of its
strokes. Which marks a scene leaves depends on the sides of the picture and not on its pixels
(`Frame.SameShape.sceneMarks_eq`), so they are known before the first of them is laid, and a scene
is drawn by laying them in their order (`Renderer.draw_eq_marks`).

What every mark keeps is therefore kept by every scene. Here this is that pixels are looked up where
there are pixels: laying marks with a look-up that fails beyond the last pixel never fails on a full
picture (`Frame.foldlM_lay?`), whatever the numbers in the scene are.
-/

namespace PhasePortrait

namespace Frame

variable {α : Type}

/-- A colour to be laid over a place. -/
structure Mark (α : Type) where
  color : Rgba α
  cell : Nat × Nat

variable [Scalar α]

/-- Lays a mark. -/
def lay (f : Frame α) (m : Mark α) : Frame α := f.blend m.color m.cell

/-- A mark is a blend, and keeps the shape as every blend does. -/
theorem sameShape_lay (f : Frame α) (m : Mark α) : SameShape (f.lay m) f :=
  sameShape_blend f m.color m.cell

/-- A mark changes the pixel of its place, if the picture has that place. -/
theorem getElem?_lay (f : Frame α) (m : Mark α) (i : Nat) :
    (f.lay m).pixels[i]? =
      if f.index? m.cell = some i then f.pixels[i]?.map (laid m.color) else f.pixels[i]? :=
  (paints_blend m.color).pixels f m.cell i

/-- What every mark keeps of a pixel is kept by all of them. A mark reaches one pixel, and leaves
all others as they are. -/
theorem pixel_foldl_lay {P : Rgb α → Prop} {marks : List (Mark α)}
    (h : ∀ m ∈ marks, ∀ c, P c → P (laid m.color c)) {f : Frame α} {i : Nat}
    (hf : ∀ c ∈ f.pixels[i]?, P c) : ∀ c ∈ (marks.foldl lay f).pixels[i]?, P c := by
  induction marks generalizing f with
  | nil => exact hf
  | cons m marks ih =>
    obtain ⟨hm, hmarks⟩ := List.forall_mem_cons.mp h
    refine ih hmarks fun c hc => ?_
    rw [getElem?_lay] at hc
    split at hc
    next =>
      obtain ⟨d, hd, rfl⟩ := Option.map_eq_some_iff.mp hc
      exact hm d (hf d hd)
    next => exact hf c hc

/-! ## The marks of a scene -/

/-- The marks of a sprite on a place at a distance from it: of its dot, and of what its glow has
there. -/
def shadeMarks (color : Rgba α) (distance : α) (cell : Nat × Nat) : List (Mark α) :=
  (if distance ≤ dotRadius then [⟨color, cell⟩] else []) ++
    if distance < glowRadius then
      [⟨{ color with a := color.a * (1.0 - distance / glowRadius) }, cell⟩]
    else []

/-- The marks that a sprite leaves on a picture. -/
def spriteMarks (f : Frame α) (sprite : Sprite α) : List (Mark α) :=
  (f.spriteCells sprite).flatMap fun cell => shadeMarks sprite.color (gap sprite cell) cell

/-- The marks that a line leaves on a picture. -/
def lineMarks (f : Frame α) (color : Rgba α) (points : List (Point α)) : List (Mark α) :=
  (f.lineSet points).map fun cell => ⟨color, cell⟩

/-- The colour of a trace. -/
def traceColor : Rgba α := Rgb.white.withAlpha Renderer.traceAlpha

/-- The marks that a scene leaves on a picture. -/
def sceneMarks (f : Frame α) (scene : Scene α) : List (Mark α) :=
  scene.visible.flatMap f.spriteMarks ++
    (scene.traces.filter fun points => decide (1 < points.length)).flatMap (f.lineMarks traceColor)

/-- A sprite is drawn by laying its marks: of each place, the one of the dot comes before that of
the glow. -/
theorem drawSprite_eq_marks (f : Frame α) (sprite : Sprite α) :
    f.drawSprite sprite = (f.spriteMarks sprite).foldl lay f := by
  have hshade : visit sprite =
      fun g cell => (shadeMarks sprite.color (gap sprite cell) cell).foldl lay g := by
    funext g cell
    unfold visit shade shadeMarks
    split <;> split <;> rfl
  rw [drawSprite_eq, spriteMarks, List.foldl_flatMap, hshade]

theorem drawLine_eq_marks (f : Frame α) (points : List (Point α)) (color : Rgba α) :
    f.drawLine points color = (f.lineMarks color points).foldl lay f := by
  rw [lineMarks, List.foldl_map]
  rfl

section Shape

variable {f g : Frame α}

/-- The box of a rectangle is cut to the sides of the picture, and depends on nothing else of it. -/
theorem SameShape.cellsIn_eq (h : SameShape f g) (low high : Point α) :
    f.cellsIn low high = g.cellsIn low high := by
  unfold cellsIn clip
  rw [h.width, h.height]

theorem SameShape.spriteMarks_eq (h : SameShape f g) : f.spriteMarks = g.spriteMarks := by
  funext sprite
  unfold spriteMarks spriteCells
  dsimp only
  rw [h.cellsIn_eq]

theorem SameShape.lineMarks_eq (h : SameShape f g) (color : Rgba α) :
    f.lineMarks color = g.lineMarks color := by
  funext points
  unfold lineMarks lineSet lineCells strokeCells
  dsimp only
  simp only [h.cellsIn_eq]

/-- The marks of a scene depend on the sides of the picture only. -/
theorem SameShape.sceneMarks_eq (h : SameShape f g) : f.sceneMarks = g.sceneMarks := by
  funext scene
  rw [sceneMarks, sceneMarks, h.spriteMarks_eq, h.lineMarks_eq]

/-- Drawing item by item is laying the marks of all items. The marks of an item depend on the shape
of the frame only, and so they are the same when the items before it are drawn. -/
theorem foldl_draw_eq_marks {β : Type} {draw : Frame α → β → Frame α}
    {marks : Frame α → β → List (Mark α)}
    (hdraw : ∀ f item, draw f item = (marks f item).foldl lay f)
    (hmarks : ∀ {f g}, SameShape f g → marks f = marks g) (items : List β) (h : SameShape f g) :
    items.foldl draw f = (items.flatMap (marks g)).foldl lay f := by
  induction items generalizing f with
  | nil => rfl
  | cons item items ih =>
    have hitem : draw f item = (marks g item).foldl lay f := by rw [hdraw, hmarks h]
    have hshape : SameShape (draw f item) g := by
      rw [hitem]
      exact (sameShape_foldl sameShape_lay _ f).trans h
    rw [List.foldl_cons, ih hshape, List.flatMap_cons, List.foldl_append, hitem]

end Shape

end Frame

open PhasePortrait.Frame

section Rendering

variable {α : Type} [Scalar α]

/-- **A scene is drawn mark by mark**, on a picture that was washed: first those of the particles,
and then those of the lines, which are drawn over them. -/
theorem Renderer.draw_eq_marks (scene : Scene α) (f : Frame α) :
    draw scene f = (f.sceneMarks scene).foldl lay (f.wash scene.background trailFade) := by
  have hwash := sameShape_wash f scene.background trailFade
  have hsprites := foldl_draw_eq_marks drawSprite_eq_marks SameShape.spriteMarks_eq scene.visible
    hwash
  have hshape := (sameShape_foldl sameShape_lay (scene.visible.flatMap f.spriteMarks) _).trans hwash
  have hlines := foldl_draw_eq_marks (fun f points => drawLine_eq_marks f points traceColor)
    (fun h => h.lineMarks_eq traceColor)
    (scene.traces.filter fun points => decide (1 < points.length)) hshape
  unfold draw
  dsimp only
  rw [hsprites, sceneMarks, List.foldl_append]
  exact hlines

namespace Frame

/-! ## Looking up pixels -/

/-- Lays a mark with a look-up that fails beyond the last pixel. A place outside the picture is
passed over before anything is looked up. -/
def lay? (f : Frame α) (m : Mark α) : Option (Frame α) :=
  match f.index? m.cell with
  | none => some f
  | some i =>
    if h : i < f.pixels.size then
      some { f with pixels := f.pixels.set i (laid m.color f.pixels[i]) h }
    else none

omit [Scalar α] in
/-- Each place of a full picture has its pixel. -/
theorem IsFull.lt_size {f : Frame α} (hfull : f.IsFull) {cell : Nat × Nat} {i : Nat}
    (hi : f.index? cell = some i) : i < f.pixels.size := by
  obtain ⟨c, hc⟩ := exists_get? hfull (index?_eq_some.mp hi).1
  rw [get?, hi, Option.bind_some] at hc
  exact (Array.getElem?_eq_some_iff.mp hc).1

/-- On a full picture the look-up that may fail does what drawing does. This is where being full is
used: each place of the picture has its pixel. -/
theorem lay?_eq_some {f : Frame α} (hfull : f.IsFull) (m : Mark α) :
    f.lay? m = some (f.lay m) := by
  unfold lay? lay blend
  cases hi : f.index? m.cell with
  | none => rfl
  | some i =>
    have hlt := hfull.lt_size hi
    have hpixels : f.pixels.set i (laid m.color f.pixels[i]) hlt =
        f.pixels.modify i (laid m.color) := by
      apply Array.ext_getElem?
      intro j
      rw [Array.getElem?_set, Array.getElem?_modify]
      split
      next heq => rw [← heq, Array.getElem?_eq_getElem hlt, Option.map_some]
      next => rfl
    dsimp only
    rw [dif_pos hlt, hpixels]
    rfl

/-- **No look-up fails.** -/
theorem foldlM_lay? {f : Frame α} (hfull : f.IsFull) (marks : List (Mark α)) :
    marks.foldlM lay? f = some (marks.foldl lay f) := by
  induction marks generalizing f with
  | nil => rfl
  | cons m marks ih =>
    rw [List.foldlM_cons, lay?_eq_some hfull]
    exact ih ((sameShape_lay f m).isFull hfull)

/-- The fourth of the bytes of each pixel is its full opacity. The bytes are four for each pixel in
a row, so those of the pixels before it are passed over by fours. -/
theorem getElem?_rgbaBytes (f : Frame α) {i : Nat} (hi : i < f.pixels.size) :
    f.rgbaBytes[4 * i + 3]? = some 255 := by
  obtain ⟨width, height, ⟨pixels⟩⟩ := f
  unfold rgbaBytes
  dsimp only at hi ⊢
  induction pixels generalizing i with
  | nil => cases hi
  | cons c pixels ih =>
    rw [List.flatMap_cons]
    cases i with
    | zero => rfl
    | succ i =>
      have hlength : (c.bytes ++ [255]).length = 4 := rfl
      rw [List.getElem?_append_right (by omega), hlength]
      exact ih (Nat.lt_of_succ_lt_succ hi)

end Frame

namespace Renderer

/-! ## Scene after scene -/

variable {r : Renderer α} {scene : Scene α}

/-- A size that a frame may have. -/
def OnCanvas (r : Renderer α) : Prop := ∀ f, r.frame = some f → IsCanvas f.width f.height

omit [Scalar α] in
/-- The picture before is drawn on again if it has the size of the scene. -/
theorem canvas_of_size {f : Frame α} (hf : r.frame = some f)
    (hsize : f.width = scene.width ∧ f.height = scene.height) : r.canvas scene = some f := by
  have hfits : fits scene f = true := by
    rw [fits, hsize.1, hsize.2, beq_self_eq_true, beq_self_eq_true, Bool.and_self]
  rw [canvas, hf, Option.filter_some, if_pos hfits]

omit [Scalar α] in
/-- A picture of another size, or none, is replaced by a new one, and there is one for the sizes of
canvases only. -/
theorem canvas_of_other_size
    (hother : ∀ f, r.frame = some f → ¬(f.width = scene.width ∧ f.height = scene.height)) :
    r.canvas scene =
      if IsCanvas scene.width scene.height then
        some ⟨scene.width, scene.height,
          Array.replicate (scene.width * scene.height) scene.background⟩
      else none := by
  have hnone : r.frame.filter (fits scene) = none := by
    rw [Option.filter_eq_none_iff]
    intro f hf hfits
    rw [fits, Bool.and_eq_true, beq_iff_eq, beq_iff_eq] at hfits
    exact hother f hf hfits
  rw [canvas, hnone]
  dsimp only
  rw [Frame.filled, checkDimensions_eq]
  split <;> rfl

omit [Scalar α] in
/-- A scene is drawn on the picture before, if that has its size, and else on all background. -/
theorem start_of_canvas {start : Frame α} (hstart : r.canvas scene = some start) :
    (∀ old, r.frame = some old →
      old.width = scene.width ∧ old.height = scene.height → start = old) ∧
    ((∀ old, r.frame = some old → ¬(old.width = scene.width ∧ old.height = scene.height)) →
      start = ⟨scene.width, scene.height,
        Array.replicate (scene.width * scene.height) scene.background⟩) := by
  refine ⟨fun old hold hsame => ?_, fun hother => ?_⟩
  · rw [canvas_of_size hold hsame] at hstart
    exact (Option.some.inj hstart).symm
  · rw [canvas_of_other_size hother] at hstart
    split at hstart
    · exact (Option.some.inj hstart).symm
    · cases hstart

omit [Scalar α] in
/-- There is a picture to draw on for the sizes of canvases. -/
theorem isSome_canvas (h : r.OnCanvas) :
    (r.canvas scene).isSome = true ↔ IsCanvas scene.width scene.height := by
  by_cases hsize : ∃ f, r.frame = some f ∧ f.width = scene.width ∧ f.height = scene.height
  · obtain ⟨f, hf, hwidth, hheight⟩ := hsize
    have hcanvas := h f hf
    rw [hwidth, hheight] at hcanvas
    rw [canvas_of_size hf ⟨hwidth, hheight⟩]
    exact iff_of_true rfl hcanvas
  · rw [canvas_of_other_size fun f hf hsame => hsize ⟨f, hf, hsame⟩]
    split <;> simp_all

/-- What is left of a scene is the picture that it was drawn on. -/
theorem isSome_frame_render (h : r.OnCanvas) :
    (r.render scene).frame.isSome = true ↔ IsCanvas scene.width scene.height := by
  rw [← isSome_canvas h, render, Option.isSome_map]

/-- A renderer has frames of the sizes of canvases only, whatever the sizes of the scenes are: it
leaves no frame behind where a size is refused. -/
theorem OnCanvas.render (h : r.OnCanvas) (hsound : r.IsSound) (scene : Scene α) :
    (r.render scene).OnCanvas := by
  intro f hf
  obtain ⟨-, hwidth, hheight⟩ := shape_of_render hsound hf
  rw [hwidth, hheight, ← isSome_frame_render h, hf]
  rfl

/-- Any number of scenes leave a full picture of the size of a canvas, or none. -/
theorem sound_foldl (scenes : List (Scene α)) :
    (scenes.foldl Renderer.render empty).IsSound ∧ (scenes.foldl Renderer.render empty).OnCanvas :=
  List.foldlRecOn scenes Renderer.render
    (motive := fun r => r.IsSound ∧ r.OnCanvas) ⟨isSound_empty, nofun⟩
    fun _ h scene _ => ⟨h.1.render scene, h.2.render h.1 scene⟩

/-- **A picture is well formed, and nothing outside it is looked up.** After any number of scenes,
with any numbers in them, the next scene leaves a picture exactly if its size is accepted. That
picture has the size of the scene and a pixel for each of its places, so few that counting them does
not overflow. It is what comes of a start by a wash and by laying the marks of the scene, none of
which looks up a pixel that is not there; the start is the picture before, if that had the same
size, and else all background. A pixel of the picture is found at every place of it and at no other,
and its bytes are four for each pixel, of which the last is full opacity. -/
theorem pictures_are_wellFormed (scenes : List (Scene α)) (scene : Scene α) :
    let before := scenes.foldl Renderer.render empty
    let size := scene.width * scene.height
    ((before.render scene).frame.isSome = true ↔
      (checkDimensions scene.width scene.height : Except (SetupError α) Unit) = .ok ()) ∧
    ∀ f, (before.render scene).frame = some f →
      (f.width = scene.width ∧ f.height = scene.height ∧ f.pixels.size = size ∧
        size ≤ maxPixels ∧ 4 * size < UInt64.size) ∧
      (∃ start : Frame α,
        (∀ old, before.frame = some old →
          old.width = scene.width ∧ old.height = scene.height → start = old) ∧
        ((∀ old, before.frame = some old →
            ¬(old.width = scene.width ∧ old.height = scene.height)) →
          start = ⟨scene.width, scene.height, Array.replicate size scene.background⟩) ∧
        (start.sceneMarks scene).foldlM lay? (start.wash scene.background trailFade) = some f) ∧
      (∀ cell, f.Holds cell → cell.2 * f.width + cell.1 < f.pixels.size ∧
        ∃ c, f.get? cell = some c ∧ f.pixels[cell.2 * f.width + cell.1]? = some c) ∧
      (∀ cell, ¬f.Holds cell → f.get? cell = none) ∧
      f.rgbaBytes.length = 4 * size ∧ ∀ i < size, f.rgbaBytes[4 * i + 3]? = some 255 := by
  intro before size
  obtain ⟨hsound, hcanvas⟩ := sound_foldl scenes
  refine ⟨(isSome_frame_render hcanvas).trans checkDimensions_eq_ok.symm, fun f hf => ?_⟩
  obtain ⟨hfull, hwidth, hheight⟩ := shape_of_render hsound hf
  have hsize : f.pixels.size = size := by
    rw [hfull, hwidth, hheight]
  obtain ⟨-, -, hpixels⟩ : IsCanvas scene.width scene.height := by
    rw [← isSome_frame_render hcanvas, hf]
    rfl
  have hfew : 4 * size < UInt64.size := by
    have hlimit : 4 * maxPixels < UInt64.size := by decide
    omega
  refine ⟨⟨hwidth, hheight, hsize, hpixels, hfew⟩, ?_, ?_, ?_, ?_, ?_⟩
  · obtain ⟨start, hstart, rfl⟩ := Option.map_eq_some_iff.mp hf
    obtain ⟨hstartFull, -⟩ := isFull_of_canvas hsound hstart
    obtain ⟨hsame, hother⟩ := start_of_canvas hstart
    refine ⟨start, hsame, hother, ?_⟩
    rw [draw_eq_marks]
    exact foldlM_lay? ((sameShape_wash start _ _).isFull hstartFull) _
  · intro cell hcell
    have hindex : f.index? cell = some (cell.2 * f.width + cell.1) :=
      index?_eq_some.mpr ⟨hcell, rfl⟩
    obtain ⟨c, hc⟩ := exists_get? hfull hcell
    refine ⟨hfull.lt_size hindex, c, hc, ?_⟩
    rwa [get?, hindex, Option.bind_some] at hc
  · intro cell hcell
    have hindex : f.index? cell = none := if_neg hcell
    rw [get?, hindex, Option.bind_none]
  · rw [length_rgbaBytes, hsize]
  · intro i hi
    exact getElem?_rgbaBytes f (hi.trans_eq hsize.symm)

end Renderer

end Rendering

end PhasePortrait
