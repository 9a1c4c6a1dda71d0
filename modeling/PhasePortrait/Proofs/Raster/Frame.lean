import PhasePortrait.Proofs.Setup
import PhasePortrait.Raster.Picture
import PhasePortrait.Raster.Renderer

/-!
# The shape of a picture

Drawing changes colours and nothing else: a frame keeps its sides, and the number of its pixels with
them (`SameShape`). So a frame that was made with all of its pixels (`IsFull`) still has them however
much was drawn on it, and has the four bytes for each of them that a file asks for.

Whether a renderer has a frame at all is decided by the size of the last scene alone.
-/

namespace PhasePortrait

variable {α : Type}

namespace Frame

/-- Two frames of the same sides and as many pixels. Drawing is followed by this relation, as the
colours of the pixels do not matter for any look-up. -/
structure SameShape (f g : Frame α) : Prop where
  width : f.width = g.width
  height : f.height = g.height
  size : f.pixels.size = g.pixels.size

/-- A frame has as many pixels as its sides say. Nothing in a frame says so of itself: it is a fact
about how frames are made. -/
def IsFull (f : Frame α) : Prop := f.pixels.size = f.width * f.height

/-- A frame has its own shape. It is the base of what is drawn by folding. -/
theorem SameShape.refl (f : Frame α) : SameShape f f := ⟨rfl, rfl, rfl⟩

/-- Shapes are compared both ways: the frame before is known, or the frame behind. -/
theorem SameShape.symm {f g : Frame α} (h : SameShape f g) : SameShape g f :=
  ⟨h.width.symm, h.height.symm, h.size.symm⟩

/-- Two steps of drawing, one after another, keep the shape if either does. -/
theorem SameShape.trans {f g h : Frame α} (hfg : SameShape f g) (hgh : SameShape g h) :
    SameShape f h :=
  ⟨hfg.width.trans hgh.width, hfg.height.trans hgh.height, hfg.size.trans hgh.size⟩

/-- A frame with the shape of a full one is full, so fullness is not looked at again once a shape is
kept. -/
theorem SameShape.isFull {f g : Frame α} (h : SameShape f g) (hg : g.IsFull) : f.IsFull := by
  unfold IsFull
  rw [h.size, h.width, h.height]
  exact hg

/-- What keeps the shape at each step keeps it. All of drawing is put together from such folds: over
places, sprites and lines. -/
theorem sameShape_foldl {β : Type} {draw : Frame α → β → Frame α}
    (h : ∀ f item, SameShape (draw f item) f) (items : List β) (f : Frame α) :
    SameShape (items.foldl draw f) f := by
  induction items generalizing f with
  | nil => exact .refl f
  | cons item items ih => exact (ih (draw f item)).trans (h f item)

/-- Changing one pixel, or none, is the only way in which drawing touches the array of pixels. -/
theorem sameShape_update (f : Frame α) (change : Rgb α → Rgb α) (i : Option Nat) :
    SameShape (f.update change i) f := by
  cases i with
  | none => exact .refl f
  | some i => exact ⟨rfl, rfl, Array.size_modify⟩

/-- A frame that is made all of one colour is full, and has the sides that were asked for. -/
theorem isFull_of_filled {width height : Nat} {color : Rgb α} {f : Frame α}
    (h : filled width height color = .ok f) :
    f.IsFull ∧ f.width = width ∧ f.height = height := by
  obtain ⟨-, hmade⟩ := check_bind_eq_ok.mp h
  obtain rfl := Except.ok.inj hmade
  exact ⟨Array.size_replicate, rfl, rfl⟩

/-- A frame is made for every size that a canvas may have. -/
theorem exists_filled {width height : Nat} (h : IsCanvas width height) (color : Rgb α) :
    ∃ f, filled width height color = .ok f :=
  ⟨_, check_bind_eq_ok.mpr ⟨checkDimensions_eq_ok.mpr h, rfl⟩⟩

variable [Scalar α]

/-- Blending a colour over a place changes at most its pixel. -/
theorem sameShape_blend (f : Frame α) (color : Rgba α) (cell : Nat × Nat) :
    SameShape (f.blend color cell) f :=
  sameShape_update f _ _

/-- What a sprite does to one place is up to two blends: one for the dot and one for the glow. -/
theorem sameShape_shade (f : Frame α) (color : Rgba α) (distance : α) (cell : Nat × Nat) :
    SameShape (f.shade color distance cell) f := by
  have hdot : SameShape (if distance ≤ dotRadius then f.blend color cell else f) f := by
    split
    · exact sameShape_blend f color cell
    · exact .refl f
  unfold shade
  dsimp only
  split
  · exact (sameShape_blend _ _ cell).trans hdot
  · exact hdot

/-- A sprite is a fold over places, each of which is shaded. -/
theorem sameShape_drawSprite (f : Frame α) (sprite : Sprite α) :
    SameShape (f.drawSprite sprite) f :=
  sameShape_foldl (fun f cell => sameShape_shade f sprite.color _ cell) _ f

/-- A line is a fold over places too, each of which is blended once. -/
theorem sameShape_drawLine (f : Frame α) (points : List (Point α)) (color : Rgba α) :
    SameShape (f.drawLine points color) f :=
  sameShape_foldl (fun f cell => sameShape_blend f color cell) _ f

/-- Washing goes over all pixels at once. It maps the array, so there are as many behind it. -/
theorem sameShape_wash (f : Frame α) (color : Rgb α) (opacity : α) :
    SameShape (f.wash color opacity) f :=
  ⟨rfl, rfl, Array.size_map⟩

/-- A scene is washed first and then drawn item by item, and each of these keeps the shape. -/
theorem sameShape_draw (scene : Scene α) (f : Frame α) :
    SameShape (Renderer.draw scene f) f := by
  unfold Renderer.draw
  dsimp only
  have hwashed := sameShape_wash f scene.background Renderer.trailFade
  have hdotted := (sameShape_foldl sameShape_drawSprite scene.visible _).trans hwashed
  exact (sameShape_foldl (fun f points => sameShape_drawLine f points _) _ _).trans hdotted

/-! ## Files -/

/-- A pixel has three bytes of colour and one of opacity, so the bytes are four times as many as the
pixels. -/
theorem length_rgbaBytes (f : Frame α) : f.rgbaBytes.length = 4 * f.pixels.size := by
  unfold rgbaBytes
  rw [List.length_flatMap]
  simp only [Rgb.bytes, List.length_append, List.length_cons, List.length_nil, List.map_const',
    List.sum_replicate_nat, Array.length_toList]
  exact Nat.mul_comm _ _

end Frame

/-- A full frame of the size of a canvas is a picture: its sides fit, and its bytes are as many as
they say. -/
theorem Picture.ofFrame_eq_ok [Scalar α] {f : Frame α} (hcanvas : IsCanvas f.width f.height)
    (hfull : f.IsFull) :
    ofFrame f = .ok { width := f.width, height := f.height, bytes := f.rgbaBytes } := by
  obtain ⟨hwidth, hheight, hpixels⟩ := hcanvas
  have hsize : maxPixels < UInt32.size := by decide
  have hfits : ¬(UInt32.size ≤ f.width ∨ UInt32.size ≤ f.height) := by
    -- Either side is at most the product, as the other one is not empty.
    have := Nat.le_mul_of_pos_right f.width hheight
    have := Nat.le_mul_of_pos_left f.height hwidth
    omega
  have hbytes : f.rgbaBytes.length = 4 * (f.width * f.height) := by
    rw [Frame.length_rgbaBytes, hfull]
  unfold ofFrame
  rw [if_neg hfits]
  dsimp only
  rw [if_pos hbytes]

namespace Renderer

/-- What a renderer has drawn is full. It is the invariant of a renderer, and holds of one that has
not drawn. -/
def IsSound (r : Renderer α) : Prop := ∀ f, r.frame = some f → f.IsFull

/-- A renderer that has drawn nothing has no frame that could lack pixels. -/
theorem isSound_empty : (empty : Renderer α).IsSound := nofun

variable {r : Renderer α} {scene : Scene α}

/-- A scene is drawn on a full frame of its size, an old one or a new one. An old one was full when
it was left behind, and a new one is made with all of its pixels. -/
theorem isFull_of_canvas (h : r.IsSound) {f : Frame α} (hf : r.canvas scene = some f) :
    f.IsFull ∧ f.width = scene.width ∧ f.height = scene.height := by
  unfold canvas at hf
  split at hf
  next kept hkept =>
    obtain rfl := Option.some.inj hf
    obtain ⟨hframe, hfits⟩ := Option.filter_eq_some_iff.mp hkept
    rw [fits, Bool.and_eq_true, beq_iff_eq, beq_iff_eq] at hfits
    exact ⟨h kept hframe, hfits⟩
  next =>
    cases hmade : Frame.filled scene.width scene.height scene.background with
    | error cause =>
      rw [hmade] at hf
      cases hf
    | ok made =>
      rw [hmade] at hf
      obtain rfl := Option.some.inj hf
      exact Frame.isFull_of_filled hmade

/-- There is a frame to draw on for every scene of the size of a canvas: the old one or a new
one. -/
theorem exists_canvas (hcanvas : IsCanvas scene.width scene.height) :
    ∃ f, r.canvas scene = some f := by
  unfold canvas
  split
  · exact ⟨_, rfl⟩
  · obtain ⟨f, hf⟩ := Frame.exists_filled hcanvas scene.background
    rw [hf]
    exact ⟨f, rfl⟩

variable [Scalar α]

/-- Whatever is drawn is drawn on full frames of the size of the scene. So the sides of what a
renderer holds are told by the last scene alone. -/
theorem shape_of_render (h : r.IsSound) {f : Frame α} (hf : (r.render scene).frame = some f) :
    f.IsFull ∧ f.width = scene.width ∧ f.height = scene.height := by
  obtain ⟨g, hg, rfl⟩ := Option.map_eq_some_iff.mp hf
  obtain ⟨hfull, hwidth, hheight⟩ := isFull_of_canvas h hg
  have hshape := Frame.sameShape_draw scene g
  exact ⟨hshape.isFull hfull, hshape.width.trans hwidth, hshape.height.trans hheight⟩

/-- Soundness is kept by every scene, so it holds of a renderer after any number of them. -/
theorem IsSound.render (h : r.IsSound) (scene : Scene α) : (r.render scene).IsSound :=
  fun _ hf => (shape_of_render h hf).1

/-- **A scene that has a canvas is drawn**, whatever was drawn before. A frame of another size is
replaced, and a new one can be made. -/
theorem exists_frame_render (hcanvas : IsCanvas scene.width scene.height) :
    ∃ f, (r.render scene).frame = some f := by
  obtain ⟨f, hf⟩ := exists_canvas (r := r) hcanvas
  exact ⟨draw scene f, congrArg (Option.map (draw scene)) hf⟩

end Renderer

end PhasePortrait
