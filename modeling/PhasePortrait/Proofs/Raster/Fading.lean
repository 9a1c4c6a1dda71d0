import PhasePortrait.Proofs.Raster.Marks

/-!
# Colours along a run

Washing a pixel and laying a mark over it move its colour towards another one by a part of the way,
and a part of the way does not lead beyond the target. So whatever is drawn, each of the three parts
of a pixel stays between the smallest and the largest of what was mixed: the pixel as it was, the
background, white and the sprites that can be seen (`Renderer.between_draw`). Where all of these are
colours that can be shown, so is every pixel of every picture.

A scene that leaves no marks only washes, and each wash leaves nine tenths of the distance from the
background. After `n` of them `(9 / 10) ^ n` of it is left.

Nothing is rounded here (`PhasePortrait.exactScalar`).
-/

namespace PhasePortrait

namespace Rgb

/-- A part of a colour. -/
def part {α : Type} (c : Rgb α) : Channel → α
  | .red => c.r
  | .green => c.g
  | .blue => c.b

/-- The colour can be shown. -/
def IsShown (c : Rgb ℝ) : Prop := ∀ k, 0 ≤ c.part k ∧ c.part k ≤ 1

theorem part_toward (c target : Rgb ℝ) (way : ℝ) (k : Channel) :
    (c.toward target way).part k = c.part k + (target.part k - c.part k) * way := by
  cases k <;> rfl

theorem isShown_white : (white : Rgb ℝ).IsShown := by
  intro k
  cases k <;> norm_num [part, white]

/-- What is left of a colour over a background after some washes. -/
noncomputable def washed (background : Rgb ℝ) (n : Nat) (c : Rgb ℝ) : Rgb ℝ where
  r := background.r + (c.r - background.r) * (9 / 10) ^ n
  g := background.g + (c.g - background.g) * (9 / 10) ^ n
  b := background.b + (c.b - background.b) * (9 / 10) ^ n

theorem washed_zero (background c : Rgb ℝ) : background.washed 0 c = c := by
  simp [washed]

/-- Washes are taken from the first one on, as a run does. -/
theorem washed_succ (background c : Rgb ℝ) (n : Nat) :
    background.washed (n + 1) c = background.washed n (c.toward background Renderer.trailFade) := by
  have hfade : (Renderer.trailFade : ℝ) = 1 / 10 := by norm_num [Renderer.trailFade]
  unfold washed toward
  rw [hfade]
  congr 1 <;> ring

end Rgb

/-! ## Mixing -/

/-- A number is neither below nor above all of some others. -/
def Between (sources : List ℝ) (v : ℝ) : Prop :=
  (∃ s ∈ sources, s ≤ v) ∧ ∃ s ∈ sources, v ≤ s

namespace Between

variable {sources : List ℝ} {v w : ℝ}

theorem of_mem (h : v ∈ sources) : Between sources v := ⟨⟨v, h, le_rfl⟩, v, h, le_rfl⟩

/-- A part of the way between two numbers. -/
theorem toward (hv : Between sources v) (hw : Between sources w) {way : ℝ} (hzero : 0 ≤ way)
    (hone : way ≤ 1) : Between sources (v + (w - v) * way) := by
  obtain ⟨⟨s, hs, hsv⟩, t, ht, hvt⟩ := hv
  obtain ⟨⟨s', hs', hsw⟩, t', ht', hwt⟩ := hw
  rcases le_total v w with h | h
  · refine ⟨⟨s, hs, ?_⟩, t', ht', ?_⟩ <;> nlinarith
  · refine ⟨⟨s', hs', ?_⟩, t, ht, ?_⟩ <;> nlinarith

theorem mem_range (h : Between sources v) {low high : ℝ}
    (hsources : ∀ s ∈ sources, low ≤ s ∧ s ≤ high) : low ≤ v ∧ v ≤ high := by
  obtain ⟨⟨s, hs, hsv⟩, t, ht, hvt⟩ := h
  exact ⟨(hsources s hs).1.trans hsv, hvt.trans (hsources t ht).2⟩

end Between

open PhasePortrait.Frame

/-! ## One scene -/

namespace Frame

/-- The colours of the marks of a scene: that of the traces, which is white, and those of the
sprites that can be seen. -/
theorem rgb_of_mem_sceneMarks {α : Type} [Scalar α] {f : Frame α} {scene : Scene α} {m : Mark α}
    (hm : m ∈ f.sceneMarks scene) :
    m.color.rgb = Rgb.white ∨ ∃ sprite ∈ scene.visible, m.color.rgb = sprite.color.rgb := by
  rcases List.mem_append.mp hm with hm | hm
  · obtain ⟨sprite, hsprite, hm⟩ := List.mem_flatMap.mp hm
    obtain ⟨cell, -, hm⟩ := List.mem_flatMap.mp hm
    refine .inr ⟨sprite, hsprite, ?_⟩
    unfold shadeMarks at hm
    rcases List.mem_append.mp hm with hm | hm
    · split at hm
      · obtain rfl := List.mem_singleton.mp hm
        rfl
      · cases hm
    · split at hm
      · obtain rfl := List.mem_singleton.mp hm
        rfl
      · cases hm
  · obtain ⟨points, -, hm⟩ := List.mem_flatMap.mp hm
    obtain ⟨cell, -, rfl⟩ := List.mem_map.mp hm
    exact .inl rfl

/-- A wash moves every pixel towards the background by the same part of the way. -/
theorem getElem?_wash {α : Type} [Scalar α] (f : Frame α) (color : Rgb α) (opacity : α) (i : Nat) :
    (f.wash color opacity).pixels[i]? = f.pixels[i]?.map fun c => c.toward color opacity :=
  Array.getElem?_map

end Frame

namespace Renderer

/-- What the part of a pixel is mixed of: the pixel as it was, the background, white and the sprites
that can be seen. -/
noncomputable def sources (scene : Scene ℝ) (old : Rgb ℝ) (k : Channel) : List ℝ :=
  old.part k :: scene.background.part k :: (Rgb.white : Rgb ℝ).part k ::
    scene.visible.map fun sprite => sprite.color.rgb.part k

/-- **Drawing mixes.** Washing goes a part of the way to the background, and each mark a part of the
way to its own colour; so the part of a pixel stays between those of all that is mixed, mark by
mark. -/
theorem between_draw (scene : Scene ℝ) (f : Frame ℝ) (cell : Nat × Nat) :
    Option.Rel (fun old new => ∀ k, Between (sources scene old k) (new.part k))
      (f.get? cell) ((draw scene f).get? cell) := by
  unfold get?
  rw [(sameShape_draw scene f).index?_eq]
  cases f.index? cell with
  | none => exact .none
  | some i =>
    rw [Option.bind_some, Option.bind_some]
    have hsize := (sameShape_draw scene f).size
    cases hold : f.pixels[i]? with
    | none =>
      rw [Array.getElem?_eq_none_iff, ← hsize] at hold
      rw [Array.getElem?_eq_none hold]
      exact .none
    | some old =>
      have hlt : i < (draw scene f).pixels.size := by
        rw [hsize]
        exact (Array.getElem?_eq_some_iff.mp hold).1
      have hnew := Array.getElem?_eq_getElem hlt
      have hmixed : ∀ new ∈ (draw scene f).pixels[i]?, ∀ k,
          Between (sources scene old k) (new.part k) := by
        rw [draw_eq_marks]
        refine pixel_foldl_lay (fun m hm c hc k => ?_) fun c hc k => ?_
        · -- A mark is white or of the colour of a sprite.
          rw [laid, Rgb.part_toward]
          refine (hc k).toward (.of_mem ?_) (Scalar.clampUnit_nonneg _) (Scalar.clampUnit_le_one _)
          obtain hwhite | ⟨sprite, hsprite, hcolor⟩ := rgb_of_mem_sceneMarks hm
          · rw [hwhite]
            simp [sources]
          · rw [hcolor]
            simp only [sources, List.mem_cons, List.mem_map]
            exact .inr (.inr (.inr ⟨sprite, hsprite, rfl⟩))
        · rw [getElem?_wash, hold] at hc
          obtain rfl := Option.some.inj hc
          have hfade : (0 : ℝ) ≤ trailFade ∧ (trailFade : ℝ) ≤ 1 := by norm_num [trailFade]
          rw [Rgb.part_toward]
          exact Between.toward (.of_mem (by simp [sources])) (.of_mem (by simp [sources])) hfade.1
            hfade.2
      rw [hnew]
      exact .some (hmixed _ hnew)

/-! ## Scene after scene -/

/-- All that a scene mixes into a picture can be shown. -/
def Shows (scene : Scene ℝ) : Prop :=
  scene.background.IsShown ∧ ∀ sprite ∈ scene.visible, sprite.color.rgb.IsShown

/-- All pixels of a picture can be shown. -/
def AllShown (r : Renderer ℝ) : Prop :=
  ∀ f, r.frame = some f → ∀ cell c, f.get? cell = some c → c.IsShown

variable {r : Renderer ℝ} {scene : Scene ℝ}

/-- A picture that is all background. -/
theorem eq_of_get?_replicate {width height n : Nat} {background c : Rgb ℝ} {cell : Nat × Nat}
    (h : (⟨width, height, Array.replicate n background⟩ : Frame ℝ).get? cell = some c) :
    c = background := by
  obtain ⟨i, -, hi⟩ := Option.bind_eq_some_iff.mp h
  rw [Array.getElem?_replicate] at hi
  split at hi
  · exact (Option.some.inj hi).symm
  · cases hi

/-- The picture to draw on is the one before or all background, and both can be shown. -/
theorem isShown_of_canvas (h : r.AllShown) (hscene : Shows scene) {f : Frame ℝ}
    (hf : r.canvas scene = some f) {cell : Nat × Nat} {c : Rgb ℝ} (hc : f.get? cell = some c) :
    c.IsShown := by
  obtain ⟨hsame, hother⟩ := start_of_canvas hf
  by_cases hsize : ∃ old, r.frame = some old ∧ old.width = scene.width ∧ old.height = scene.height
  · obtain ⟨old, hold, hfits⟩ := hsize
    rw [hsame old hold hfits] at hc
    exact h old hold cell c hc
  · rw [hother fun old hold hfits => hsize ⟨old, hold, hfits⟩] at hc
    rw [eq_of_get?_replicate hc]
    exact hscene.1

/-- What is mixed of colours that can be shown can be shown: the range of colours is an interval in
each part, and mixing does not lead out of it. -/
theorem AllShown.render (h : r.AllShown) (hscene : Shows scene) : (r.render scene).AllShown := by
  intro f hf cell new hnew
  obtain ⟨start, hstart, rfl⟩ := Option.map_eq_some_iff.mp hf
  have hmixed := between_draw scene start cell
  rw [hnew] at hmixed
  cases hget : start.get? cell with
  | none =>
    rw [hget] at hmixed
    cases hmixed
  | some old =>
    rw [hget] at hmixed
    cases hmixed with
    | some hmixed =>
      have hold := isShown_of_canvas h hscene hstart hget
      refine fun k => (hmixed k).mem_range fun s hs => ?_
      simp only [sources, List.mem_cons, List.mem_map] at hs
      obtain rfl | rfl | rfl | ⟨sprite, hsprite, rfl⟩ := hs
      · exact hold k
      · exact hscene.1 k
      · exact Rgb.isShown_white k
      · exact hscene.2 sprite hsprite k

/-! ## Washing alone -/

/-- A scene over a background in which nothing is to be drawn. -/
structure Washes (background : Rgb ℝ) (scene : Scene ℝ) : Prop where
  background : scene.background = background
  visible : scene.visible = []
  traces : ∀ points ∈ scene.traces, points.length ≤ 1

/-- Where there is nothing to draw, all that is done is a wash. -/
theorem draw_of_washes {background : Rgb ℝ} (h : Washes background scene) (f : Frame ℝ) :
    draw scene f = f.wash background trailFade := by
  have hnone : scene.traces.filter (fun points => decide (1 < points.length)) = [] := by
    rw [List.filter_eq_nil_iff]
    intro points hpoints
    simpa using h.traces points hpoints
  rw [draw_eq_marks, sceneMarks, h.visible, hnone, h.background]
  rfl

/-- Some scenes in a row that only wash. The picture keeps its size, so none of them starts on a new
one, and the washes add up. -/
theorem foldl_washes {background : Rgb ℝ} {scenes : List (Scene ℝ)} {f : Frame ℝ}
    (h : ∀ scene ∈ scenes, Washes background scene ∧ f.width = scene.width ∧
      f.height = scene.height) :
    ∃ g, (scenes.foldl Renderer.render ⟨some f⟩).frame = some g ∧ SameShape g f ∧
      ∀ cell, g.get? cell = (f.get? cell).map (background.washed scenes.length) := by
  induction scenes generalizing f with
  | nil =>
    refine ⟨f, rfl, .refl f, fun cell => ?_⟩
    have hid : background.washed 0 = id := funext background.washed_zero
    rw [List.length_nil, hid, Option.map_id_fun, id_eq]
  | cons scene scenes ih =>
    obtain ⟨⟨hwashes, hsize⟩, hscenes⟩ := List.forall_mem_cons.mp h
    have hshape := sameShape_wash f background (trailFade : ℝ)
    have hrender : Renderer.render ⟨some f⟩ scene = ⟨some (f.wash background trailFade)⟩ := by
      rw [render, canvas_of_size rfl hsize, Option.map_some, draw_of_washes hwashes]
    obtain ⟨g, hg, hgshape, hget⟩ := ih (f := f.wash background trailFade) fun scene hscene =>
      ⟨(hscenes scene hscene).1, hshape.width.trans (hscenes scene hscene).2.1,
        hshape.height.trans (hscenes scene hscene).2.2⟩
    refine ⟨g, by rw [List.foldl_cons, hrender, hg], hgshape.trans hshape, fun cell => ?_⟩
    have hwash : (f.wash background trailFade).get? cell =
        (f.get? cell).map fun c => c.toward background trailFade := by
      unfold get?
      rw [hshape.index?_eq]
      cases f.index? cell with
      | none => rfl
      | some i => exact getElem?_wash f background trailFade i
    rw [hget, hwash, Option.map_map]
    congr 1
    funext c
    exact (background.washed_succ c scenes.length).symm

/-- **Pixels stay in the range of colours.** Where the backgrounds of all scenes and the sprites in
them that can be seen have colours that can be shown, so does every pixel after each of the scenes,
whatever the opacities are.

More exactly, each part of a pixel is between the smallest and the largest of that of the pixel
drawn on, of the background, of white, and of the sprites that can be seen, whatever the colours are;
the pixel drawn on is the old one where a picture of this size goes on, and background otherwise.
And where scenes only wash, `n` of them leave `(9 / 10) ^ n` of what a pixel differs from the
background. -/
theorem pixels_stay_in_range :
    (∀ scenes : List (Scene ℝ), (∀ scene ∈ scenes, Shows scene) →
      ∀ f, (scenes.foldl Renderer.render empty).frame = some f →
        ∀ cell c, f.get? cell = some c → c.IsShown) ∧
    (∀ (r : Renderer ℝ) (scene : Scene ℝ) (f : Frame ℝ), (r.render scene).frame = some f →
      ∃ start : Frame ℝ,
        (∀ old, r.frame = some old →
          old.width = scene.width ∧ old.height = scene.height → start = old) ∧
        ((∀ old, r.frame = some old →
            ¬(old.width = scene.width ∧ old.height = scene.height)) →
          ∀ cell c, start.get? cell = some c → c = scene.background) ∧
        ∀ cell, Option.Rel (fun old new => ∀ k, Between (sources scene old k) (new.part k))
          (start.get? cell) (f.get? cell)) ∧
    ∀ (background : Rgb ℝ) (f : Frame ℝ) (scenes : List (Scene ℝ)),
      (∀ scene ∈ scenes, Washes background scene ∧ f.width = scene.width ∧
        f.height = scene.height) →
      ∃ g, (scenes.foldl Renderer.render ⟨some f⟩).frame = some g ∧ SameShape g f ∧
        ∀ cell, g.get? cell = (f.get? cell).map fun p =>
          let left : ℝ := (9 / 10) ^ scenes.length
          ⟨background.r + (p.r - background.r) * left, background.g + (p.g - background.g) * left,
            background.b + (p.b - background.b) * left⟩ := by
  refine ⟨fun scenes hscenes => ?_, fun r scene f hf => ?_, fun _ _ _ => foldl_washes⟩
  · exact List.foldlRecOn scenes Renderer.render (motive := AllShown) nofun
      fun _ h scene hscene => h.render (hscenes scene hscene)
  · obtain ⟨start, hstart, rfl⟩ := Option.map_eq_some_iff.mp hf
    obtain ⟨hsame, hother⟩ := start_of_canvas hstart
    refine ⟨start, hsame, fun hnew => ?_, between_draw scene start⟩
    rw [hother hnew]
    exact fun _ _ => eq_of_get?_replicate

/-- A white pixel over black, after two scenes in which there is nothing. -/
theorem pixel_fades_twice :
    let scene : Scene ℝ := Scene.blank 1 1 Rgb.black
    ∃ g, ([scene, scene].foldl Renderer.render ⟨some ⟨1, 1, #[Rgb.white]⟩⟩).frame = some g ∧
      g.get? (0, 0) = some ⟨81 / 100, 81 / 100, 81 / 100⟩ := by
  intro scene
  have hwashes : ∀ s ∈ [scene, scene], Washes Rgb.black s ∧ 1 = s.width ∧ 1 = s.height := by
    intro s hs
    obtain rfl : s = scene := by simpa using hs
    exact ⟨⟨rfl, rfl, nofun⟩, rfl, rfl⟩
  obtain ⟨g, hg, -, hget⟩ :=
    pixels_stay_in_range.2.2 Rgb.black ⟨1, 1, #[Rgb.white]⟩ [scene, scene] hwashes
  refine ⟨g, hg, ?_⟩
  have hwhite : (⟨1, 1, #[Rgb.white]⟩ : Frame ℝ).get? (0, 0) = some Rgb.white := rfl
  rw [hget, hwhite, Option.map_some]
  norm_num [Rgb.black, Rgb.white]

end Renderer

end PhasePortrait
