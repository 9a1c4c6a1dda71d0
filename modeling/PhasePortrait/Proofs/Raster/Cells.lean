import PhasePortrait.Proofs.Exact
import PhasePortrait.Proofs.Raster.Frame

/-!
# The places of a picture

Places of a picture and indices of its pixels are one to one. So painting a list of places that has
none twice changes the pixels of these places, each of them once, and no others
(`Frame.Paints.getElem?_foldl`); the order in which they come does not matter, and neither does a
place where painting changes nothing (`Frame.Paints.foldl_eq`).

Which places a rectangle touches is found by rounding its sides outwards and cutting them off at the
sides of the picture. Where nothing is rounded but these sides, that leaves all places of the
picture between the rounded sides, and no other (`Frame.mem_cellsIn`).
-/

namespace PhasePortrait

/-- A span has both of its ends in it, and is empty if they are the wrong way round. -/
theorem mem_span {first last n : Nat} : n ∈ span first last ↔ first ≤ n ∧ n ≤ last := by
  rw [span, List.mem_range'_1]
  omega

/-- The places of a box are those within its sides, with the sides. -/
theorem Box.mem_cells {box : Box} {cell : Nat × Nat} :
    cell ∈ box.cells ↔
      (box.left ≤ cell.1 ∧ cell.1 ≤ box.right) ∧ box.top ≤ cell.2 ∧ cell.2 ≤ box.bottom := by
  obtain ⟨x, y⟩ := cell
  simp only [cells, List.mem_flatMap, List.mem_map, mem_span, Prod.mk.injEq]
  constructor
  · rintro ⟨row, hrow, column, hcolumn, rfl, rfl⟩
    exact ⟨hcolumn, hrow⟩
  · rintro ⟨hcolumn, hrow⟩
    exact ⟨y, hrow, x, hcolumn, rfl, rfl⟩

namespace Frame

variable {α : Type}

/-! ## Places and pixels -/

/-- The place is one of the picture. -/
def Holds (f : Frame α) (cell : Nat × Nat) : Prop := cell.1 < f.width ∧ cell.2 < f.height

/-- Pixels stand row by row. The index of a place is looked up for places of the picture only. -/
theorem index?_eq_some {f : Frame α} {cell : Nat × Nat} {i : Nat} :
    f.index? cell = some i ↔ f.Holds cell ∧ cell.2 * f.width + cell.1 = i := by
  unfold index? Holds
  split <;> simp_all

/-- Two places of a picture do not share a pixel. -/
theorem index?_injective {f : Frame α} {c d : Nat × Nat} {i : Nat} (hc : f.index? c = some i)
    (hd : f.index? d = some i) : c = d := by
  obtain ⟨⟨hcolumn, -⟩, rfl⟩ := index?_eq_some.mp hc
  obtain ⟨⟨hcolumn', -⟩, hsame⟩ := index?_eq_some.mp hd
  have hpos : 0 < f.width := Nat.zero_lt_of_lt hcolumn
  apply Prod.ext
  · have hmod := congrArg (· % f.width) hsame
    simpa [Nat.mul_add_mod', Nat.mod_eq_of_lt, hcolumn, hcolumn'] using hmod.symm
  · have hdiv := congrArg (· / f.width) hsame
    simpa [Nat.mul_comm _ f.width, Nat.mul_add_div hpos, Nat.div_eq_of_lt, hcolumn, hcolumn']
      using hdiv.symm

/-- A full frame has a pixel at each of its places. -/
theorem exists_get? {f : Frame α} (hfull : f.IsFull) {cell : Nat × Nat} (h : f.Holds cell) :
    ∃ c, f.get? cell = some c := by
  have hindex : f.index? cell = some (cell.2 * f.width + cell.1) := index?_eq_some.mpr ⟨h, rfl⟩
  have hlt : cell.2 * f.width + cell.1 < f.pixels.size := by
    calc cell.2 * f.width + cell.1 < cell.2 * f.width + f.width := Nat.add_lt_add_left h.1 _
      _ = (cell.2 + 1) * f.width := (Nat.succ_mul _ _).symm
      _ ≤ f.height * f.width := Nat.mul_le_mul_right _ h.2
      _ = f.pixels.size := (Nat.mul_comm _ _).trans hfull.symm
  refine ⟨f.pixels[cell.2 * f.width + cell.1], ?_⟩
  rw [get?, hindex, Option.bind_some, Array.getElem?_eq_getElem hlt]

/-- Indices depend on the sides of a picture, and these are not changed by drawing. -/
theorem SameShape.index?_eq {f g : Frame α} (h : SameShape f g) : f.index? = g.index? := by
  funext cell
  rw [index?, index?, h.width, h.height]

/-- A picture is its sides and its pixels. -/
theorem SameShape.eq {f g : Frame α} (h : SameShape f g)
    (hpixels : ∀ i : Nat, f.pixels[i]? = g.pixels[i]?) : f = g := by
  obtain ⟨width, height, pixels⟩ := f
  obtain rfl : width = g.width := h.width
  obtain rfl : height = g.height := h.height
  obtain rfl : pixels = g.pixels := Array.ext_getElem? hpixels
  rfl

/-- A change shows at the index that it is made at, and nowhere else. -/
theorem getElem?_update (f : Frame α) (change : Rgb α → Rgb α) (index : Option Nat) (i : Nat) :
    (f.update change index).pixels[i]? =
      if index = some i then f.pixels[i]?.map change else f.pixels[i]? := by
  cases index with
  | none => rfl
  | some j =>
    show (f.pixels.modify j change)[i]? = _
    simp only [Array.getElem?_modify, Option.some.injEq]

/-! ## Painting places -/

/-- Painting a place changes the pixel there, in a way that may depend on the place, and nothing
else. -/
structure Paints (paint : Frame α → Nat × Nat → Frame α) (change : Nat × Nat → Rgb α → Rgb α) :
    Prop where
  shape : ∀ f cell, SameShape (paint f cell) f
  pixels : ∀ f cell (i : Nat), (paint f cell).pixels[i]? =
    if f.index? cell = some i then f.pixels[i]?.map (change cell) else f.pixels[i]?

namespace Paints

variable {paint : Frame α → Nat × Nat → Frame α} {change : Nat × Nat → Rgb α → Rgb α}

theorem shape_foldl (h : Paints paint change) (cells : List (Nat × Nat)) (f : Frame α) :
    SameShape (cells.foldl paint f) f :=
  sameShape_foldl h.shape cells f

/-- A pixel of none of the places stays as it is. -/
theorem getElem?_foldl_of_not_mem (h : Paints paint change) {cells : List (Nat × Nat)}
    {f : Frame α} {i : Nat} (hnone : ∀ cell ∈ cells, f.index? cell ≠ some i) :
    (cells.foldl paint f).pixels[i]? = f.pixels[i]? := by
  induction cells generalizing f with
  | nil => rfl
  | cons first rest ih =>
    obtain ⟨hfirst, hrest⟩ := List.forall_mem_cons.mp hnone
    rw [List.foldl_cons, ih, h.pixels, if_neg hfirst]
    rwa [(h.shape f first).index?_eq]

/-- **Each place once.** Painting different places changes the pixel of each of them once. Two
places have two pixels, so what is painted later does not touch it again. -/
theorem getElem?_foldl (h : Paints paint change) {cells : List (Nat × Nat)} (hnodup : cells.Nodup)
    {f : Frame α} {cell : Nat × Nat} {i : Nat} (hi : f.index? cell = some i) :
    (cells.foldl paint f).pixels[i]? =
      if cell ∈ cells then f.pixels[i]?.map (change cell) else f.pixels[i]? := by
  induction cells generalizing f with
  | nil => rw [List.foldl_nil, if_neg List.not_mem_nil]
  | cons first rest ih =>
    obtain ⟨hfirst, hrest⟩ := List.nodup_cons.mp hnodup
    have hindex : (paint f first).index? cell = some i := by
      rwa [(h.shape f first).index?_eq]
    rw [List.foldl_cons, ih hrest hindex, h.pixels]
    by_cases hsame : cell = first
    · -- No later place has this pixel.
      subst hsame
      rw [if_neg hfirst, if_pos hi, if_pos List.mem_cons_self]
    · have hother : f.index? first ≠ some i := fun hi' => hsame (index?_injective hi hi')
      simp only [if_neg hother, List.mem_cons, hsame, false_or]

/-- The same read off by places, which is how the theorems on lines and sprites are stated. -/
theorem get?_foldl (h : Paints paint change) {cells : List (Nat × Nat)} (hnodup : cells.Nodup)
    (f : Frame α) (cell : Nat × Nat) :
    (cells.foldl paint f).get? cell =
      if cell ∈ cells then (f.get? cell).map (change cell) else f.get? cell := by
  unfold get?
  rw [(h.shape_foldl cells f).index?_eq]
  cases hi : f.index? cell with
  | none => simp
  | some i => exact h.getElem?_foldl hnodup hi

/-- Places that are painted in one list and not in another make no difference if painting them
changes nothing. -/
theorem foldl_eq (h : Paints paint change) {cells others : List (Nat × Nat)}
    (hcells : cells.Nodup) (hothers : others.Nodup) {f : Frame α}
    (hleft : ∀ cell, f.Holds cell → cell ∈ cells → cell ∉ others → change cell = id)
    (hright : ∀ cell, f.Holds cell → cell ∈ others → cell ∉ cells → change cell = id) :
    cells.foldl paint f = others.foldl paint f := by
  apply ((h.shape_foldl cells f).trans (h.shape_foldl others f).symm).eq
  intro i
  by_cases hplace : ∃ cell, f.index? cell = some i
  · obtain ⟨cell, hi⟩ := hplace
    have hholds : f.Holds cell := (index?_eq_some.mp hi).1
    rw [h.getElem?_foldl hcells hi, h.getElem?_foldl hothers hi]
    split <;> split
    next => rfl
    next hin hout => rw [hleft cell hholds hin hout, Option.map_id_fun, id_eq]
    next hout hin => rw [hright cell hholds hin hout, Option.map_id_fun, id_eq]
    next => rfl
  · have hnone : ∀ places : List (Nat × Nat), ∀ cell ∈ places, f.index? cell ≠ some i :=
      fun _ cell _ hi => hplace ⟨cell, hi⟩
    rw [h.getElem?_foldl_of_not_mem (hnone cells), h.getElem?_foldl_of_not_mem (hnone others)]

end Paints

variable [Scalar α]

/-- A pixel with a colour laid over it. -/
def laid (color : Rgba α) (c : Rgb α) : Rgb α := c.toward color.rgb (Scalar.clampUnit color.a)

/-- Blending one colour paints: every pixel is changed by the same law, wherever it is. -/
theorem paints_blend (color : Rgba α) :
    Paints (fun f cell => f.blend color cell) fun _ => laid color where
  shape f cell := sameShape_blend f color cell
  pixels f _ i := getElem?_update f _ _ i

/-- Rows and columns without repetition make places without repetition. -/
theorem nodup_places {rows columns : List Nat} (hrows : rows.Nodup) (hcolumns : columns.Nodup) :
    (rows.flatMap fun y => columns.map fun x => (x, y)).Nodup := by
  rw [List.nodup_flatMap]
  constructor
  · intro y _
    exact hcolumns.map fun _ _ h => (Prod.mk.inj h).1
  · apply hrows.imp
    intro y y' hne cell hcell hcell'
    obtain ⟨x, -, rfl⟩ := List.mem_map.mp hcell
    obtain ⟨x', -, h⟩ := List.mem_map.mp hcell'
    exact hne (Prod.mk.inj h).2.symm

/-! ## The places that a rectangle touches -/

/-- No place of a box comes twice, since rows and columns do not. -/
theorem nodup_cellsIn (f : Frame α) (low high : Point α) : (f.cellsIn low high).Nodup := by
  unfold cellsIn
  split
  · exact nodup_places List.nodup_range' List.nodup_range'
  · exact List.nodup_nil

/-- The sides of the box that a rectangle is cut to, as whole numbers. They are computed as scalars
and then truncated, and as they are whole already the truncation changes nothing. -/
theorem clip_eq (f : Frame ℝ) (low high : Point ℝ) :
    f.clip low high =
      if max ⌊low.x⌋ 0 ≤ min ⌈high.x⌉ (f.width - 1) ∧
          max ⌊low.y⌋ 0 ≤ min ⌈high.y⌉ (f.height - 1) then
        some {
          left := (max ⌊low.x⌋ 0).toNat
          top := (max ⌊low.y⌋ 0).toNat
          right := (min ⌈high.x⌉ (f.width - 1)).toNat
          bottom := (min ⌈high.y⌉ (f.height - 1)).toNat }
      else none := by
  have hlow (x : ℝ) : Scalar.larger (Scalar.floor x) (0.0 : ℝ) = ((max ⌊x⌋ 0 : ℤ) : ℝ) := by
    rw [Scalar.larger_eq_max, Scalar.floor_eq]
    push_cast
    norm_num
  have hhigh (x : ℝ) (n : ℕ) :
      Scalar.smaller (Scalar.ceil x) ((n : ℝ) - 1.0) = ((min ⌈x⌉ (n - 1) : ℤ) : ℝ) := by
    rw [Scalar.smaller_eq_min, Scalar.ceil_eq]
    push_cast
    norm_num
  unfold clip
  simp only [hlow, hhigh, Scalar.truncate_intCast, Int.cast_le]

/-- **The places that a rectangle touches** are those of the picture between its rounded sides. A
box that is empty or beyond the picture has no such place. -/
theorem mem_cellsIn {f : Frame ℝ} {low high : Point ℝ} {cell : Nat × Nat} :
    cell ∈ f.cellsIn low high ↔
      f.Holds cell ∧ (⌊low.x⌋ ≤ cell.1 ∧ (cell.1 : ℤ) ≤ ⌈high.x⌉) ∧
        ⌊low.y⌋ ≤ cell.2 ∧ (cell.2 : ℤ) ≤ ⌈high.y⌉ := by
  unfold cellsIn Holds
  rw [clip_eq]
  split
  next box hbox =>
    split at hbox
    · obtain rfl := Option.some.inj hbox
      rw [Box.mem_cells]
      dsimp only
      omega
    · cases hbox
  next hnone =>
    split at hnone
    · cases hnone
    · simp only [List.not_mem_nil, false_iff]
      omega

/-- The whole numbers whose half-step up is within a length of a value lie between the rounded ends
of the interval of that length around it. -/
theorem floor_le_and_le_ceil_of_near {z r : ℝ} {n : Nat} (hnear : |(n : ℝ) + 1 / 2 - z| ≤ r) :
    ⌊z - r⌋ ≤ n ∧ (n : ℤ) ≤ ⌈z + r⌉ := by
  obtain ⟨hbelow, habove⟩ := abs_le.mp hnear
  constructor
  · rw [Int.floor_le_iff]
    push_cast
    linarith
  · rw [Int.le_ceil_iff]
    push_cast
    linarith

end Frame

end PhasePortrait
