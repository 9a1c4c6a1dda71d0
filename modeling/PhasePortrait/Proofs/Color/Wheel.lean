import Mathlib.Tactic.Linarith
import Mathlib.Tactic.FieldSimp
import Mathlib.Tactic.IntervalCases
import PhasePortrait.Color.Wheel
import PhasePortrait.Proofs.Exact

/-!
# The wheel of colours

A hue is a number of sectors of sixty degrees and a part of one more (`Rgb.exists_sectors`), and the
colour depends on that part and on the number of sectors up to whole turns (`Rgb.ofHsl_sectors`). In
an even sector one part of the colour rises, in an odd one it falls; of the two others one is the
strongest and one is the weakest. Two sectors further the three have changed places.

So **hues go around**, and a third of a turn moves each part of the colour on to the next one. The
strongest and the weakest part do not depend on the hue: their sum is twice the lightness, and their
difference is the share, given by the saturation, of the widest one that the lightness has room for.

Nothing is rounded here (`PhasePortrait.exactScalar`).
-/

namespace PhasePortrait

namespace Scalar

theorem remainder_eq (x y : ℝ) : remainder x y = x - y * ⌊x / y⌋ := rfl

/-- A remainder scales with both numbers. -/
theorem remainder_mul {u : ℝ} (hu : u ≠ 0) (x y : ℝ) :
    remainder (u * x) (u * y) = u * remainder x y := by
  rw [remainder_eq, remainder_eq, mul_div_mul_left x y hu]
  ring

/-- A part of one does not change how often a whole number goes into another one. -/
theorem remainder_add {k : ℤ} (hk : 0 < k) (n : ℤ) {t : ℝ} (hzero : 0 ≤ t) (hone : t < 1) :
    remainder ((n : ℝ) + t) k = ((n % k : ℤ) : ℝ) + t := by
  have hfloor : ⌊((n : ℝ) + t) / k⌋ = n / k := by
    have hn : ⌊(n : ℝ) + t⌋ = n := by
      rw [Int.floor_intCast_add, Int.floor_eq_zero_iff.mpr ⟨hzero, hone⟩, add_zero]
    obtain ⟨m, rfl⟩ := Int.eq_ofNat_of_zero_le hk.le
    rw [Int.cast_natCast, Int.floor_div_natCast, hn]
  have hdivision : (n : ℝ) = k * ((n / k : ℤ) : ℝ) + ((n % k : ℤ) : ℝ) := by
    rw [← Int.cast_mul, ← Int.cast_add, Int.mul_ediv_add_emod]
  rw [remainder_eq, hfloor]
  linarith

/-- The sectors of a remainder. -/
theorem truncate_add {k : ℤ} (hk : 0 ≤ k) {t : ℝ} (hzero : 0 ≤ t) (hone : t < 1) :
    truncate ((k : ℝ) + t) = k := by
  have hpos : (0 : ℝ) ≤ k + t := add_nonneg (Int.cast_nonneg hk) hzero
  show (if (0 : ℝ) ≤ k + t then ⌊(k : ℝ) + t⌋ else ⌈(k : ℝ) + t⌉) = k
  rw [if_pos hpos, Int.floor_intCast_add, Int.floor_eq_zero_iff.mpr ⟨hzero, hone⟩, add_zero]

end Scalar

namespace Rgb

open PhasePortrait.Scalar

/-! ## The parts of a colour -/

/-- The difference of the strongest and the weakest part of a colour. -/
noncomputable def chroma (saturation lightness : ℝ) : ℝ :=
  (1 - |2 * clampUnit lightness - 1|) * clampUnit saturation

/-- The weakest part of a colour. -/
noncomputable def weakest (saturation lightness : ℝ) : ℝ :=
  clampUnit lightness - chroma saturation lightness / 2

/-- The share of the chroma in the part that is neither the strongest nor the weakest, at a part `t`
of a sector: it rises in even sectors and falls in odd ones. -/
noncomputable def ramp (n : ℤ) (t : ℝ) : ℝ := if n % 2 = 0 then t else 1 - t

/-- All three parts made stronger. -/
noncomputable def lift (c : Rgb ℝ) (m : ℝ) : Rgb ℝ := ⟨c.r + m, c.g + m, c.b + m⟩

/-- Each part moved on to the next one. -/
def rotate (c : Rgb ℝ) : Rgb ℝ := ⟨c.b, c.r, c.g⟩

theorem rotate_lift (c : Rgb ℝ) (m : ℝ) : (c.lift m).rotate = c.rotate.lift m := rfl

theorem chroma_nonneg (s l : ℝ) : 0 ≤ chroma s l := by
  have hlow := clampUnit_nonneg l
  have hhigh := clampUnit_le_one l
  have hroom : |2 * clampUnit l - 1| ≤ 1 := abs_le.mpr ⟨by linarith, by linarith⟩
  exact mul_nonneg (by linarith) (clampUnit_nonneg s)

/-- There is room for the chroma on both sides of the lightness. So the strongest part is at most
one and the weakest at least zero, whatever the saturation is. -/
theorem chroma_le (s l : ℝ) :
    chroma s l ≤ 2 * clampUnit l ∧ chroma s l ≤ 2 - 2 * clampUnit l := by
  have hlow := clampUnit_nonneg l
  have hhigh := clampUnit_le_one l
  have hroom : |2 * clampUnit l - 1| ≤ 1 := abs_le.mpr ⟨by linarith, by linarith⟩
  have hle : chroma s l ≤ 1 - |2 * clampUnit l - 1| :=
    mul_le_of_le_one_right (by linarith) (clampUnit_le_one s)
  have hrise := le_abs_self (2 * clampUnit l - 1)
  have hfall := neg_le_abs (2 * clampUnit l - 1)
  exact ⟨by linarith, by linarith⟩

theorem ramp_mem (n : ℤ) {t : ℝ} (hzero : 0 ≤ t) (hone : t < 1) : 0 ≤ ramp n t ∧ ramp n t ≤ 1 := by
  unfold ramp
  split
  · exact ⟨hzero, hone.le⟩
  · exact ⟨by linarith, by linarith⟩

theorem ramp_add_two (n : ℤ) (t : ℝ) : ramp (n + 2) t = ramp n t := by
  unfold ramp
  rw [Int.add_emod_right]

/-! ## Sectors -/

/-- Two sectors further the parts have changed places. -/
theorem sector_add_two {k : Nat} (hk : k < 6) (strong middle : ℝ) :
    sector ((k + 2) % 6) strong middle = (sector k strong middle).rotate := by
  interval_cases k <;> rfl

/-- The colour of a whole number of sectors and a part of the next one. -/
noncomputable def atSectors (n : ℤ) (t s l : ℝ) : Rgb ℝ :=
  (sector (n % 6).toNat (chroma s l) (chroma s l * ramp n t)).lift (weakest s l)

/-- **The colour of a hue** of `n` sectors and a part. Whole turns are taken off by the remainder,
and which sector is meant is found by truncating what is left. -/
theorem ofHsl_sectors (n : ℤ) {t : ℝ} (hzero : 0 ≤ t) (hone : t < 1) (s l : ℝ) :
    ofHsl (60 * ((n : ℝ) + t)) s l = atSectors n t s l := by
  have hturn : remainder (60 * ((n : ℝ) + t)) 360 = 60 * (((n % 6 : ℤ) : ℝ) + t) := by
    have hscaled := remainder_mul (u := 60) (by norm_num) ((n : ℝ) + t) ((6 : ℤ) : ℝ)
    rw [remainder_add (by decide) n hzero hone] at hscaled
    rw [← hscaled]
    norm_num
  have hposition : 60 * (((n % 6 : ℤ) : ℝ) + t) / 60 = ((n % 6 : ℤ) : ℝ) + t := by field_simp
  have hindex : truncate (((n % 6 : ℤ) : ℝ) + t) = n % 6 :=
    truncate_add (Int.emod_nonneg n (by decide)) hzero hone
  have hpair : remainder (((n % 6 : ℤ) : ℝ) + t) 2 = ((n % 2 : ℤ) : ℝ) + t := by
    have hsectors := remainder_add (k := 2) (by decide) (n % 6) hzero hone
    rwa [Int.emod_emod_of_dvd n (by decide : (2 : ℤ) ∣ 6), Int.cast_ofNat] at hsectors
  have hramp : 1 - |((n % 2 : ℤ) : ℝ) + t - 1| = ramp n t := by
    unfold ramp
    rcases Int.emod_two_eq_zero_or_one n with h | h
    · rw [h, if_pos rfl, Int.cast_zero, zero_add, abs_of_nonpos (by linarith)]
      ring
    · rw [h, if_neg (by decide), Int.cast_one, add_sub_cancel_left, abs_of_nonneg hzero]
  have hliterals : (360.0 : ℝ) = 360 ∧ (60.0 : ℝ) = 60 ∧ (2.0 : ℝ) = 2 ∧ (1.0 : ℝ) = 1 := by
    norm_num
  obtain ⟨h360, h60, h2, h1⟩ := hliterals
  have habs : ∀ x : ℝ, Scalar.abs x = |x| := fun _ => rfl
  have hfinite : Scalar.isFinite (60 * ((n : ℝ) + t)) = true := rfl
  unfold ofHsl
  simp only [hfinite, if_true, h360, h60, h2, h1, habs, hturn, hposition, hindex, hpair, hramp]
  rfl

theorem exists_sectors (hue : ℝ) :
    ∃ (n : ℤ) (t : ℝ), 0 ≤ t ∧ t < 1 ∧ hue = 60 * ((n : ℝ) + t) := by
  refine ⟨⌊hue / 60⌋, Int.fract (hue / 60), Int.fract_nonneg _, Int.fract_lt_one _, ?_⟩
  rw [Int.floor_add_fract]
  field_simp

/-- A whole turn further the colour is the same. -/
theorem atSectors_add_six (n : ℤ) (t s l : ℝ) : atSectors (n + 6) t s l = atSectors n t s l := by
  have hramp : ramp (n + 6) t = ramp n t := by
    rw [show n + 6 = n + 2 + 2 + 2 by ring, ramp_add_two, ramp_add_two, ramp_add_two]
  unfold atSectors
  rw [hramp, Int.add_emod_right]

/-- A third of a turn further each part has moved on to the next one. -/
theorem atSectors_add_two (n : ℤ) (t s l : ℝ) :
    atSectors (n + 2) t s l = (atSectors n t s l).rotate := by
  have hindex : ((n + 2) % 6).toNat = ((n % 6).toNat + 2) % 6 := by omega
  unfold atSectors
  rw [ramp_add_two, hindex, sector_add_two (by omega), rotate_lift]

/-! ## The strongest and the weakest part -/

/-- The strongest part of a colour. -/
noncomputable def strength (c : Rgb ℝ) : ℝ := max (max c.r c.g) c.b

/-- The weakest part of a colour. -/
noncomputable def shade (c : Rgb ℝ) : ℝ := min (min c.r c.g) c.b

theorem strength_lift (c : Rgb ℝ) (m : ℝ) : (c.lift m).strength = c.strength + m := by
  simp only [strength, lift, max_add_add_right]

theorem shade_lift (c : Rgb ℝ) (m : ℝ) : (c.lift m).shade = c.shade + m := by
  simp only [shade, lift, min_add_add_right]

/-- In each sector one part is the strongest and one is zero. -/
theorem sector_range (k : Nat) {strong middle : ℝ} (hlow : 0 ≤ middle) (hhigh : middle ≤ strong) :
    (sector k strong middle).strength = strong ∧ (sector k strong middle).shade = 0 := by
  have hzero : (0.0 : ℝ) = 0 := by norm_num
  have hstrong := hlow.trans hhigh
  unfold sector strength shade
  split <;> simp [hzero, hlow, hhigh, hstrong]

theorem atSectors_range (n : ℤ) {t : ℝ} (hzero : 0 ≤ t) (hone : t < 1) (s l : ℝ) :
    (atSectors n t s l).strength = chroma s l + weakest s l ∧
      (atSectors n t s l).shade = weakest s l := by
  obtain ⟨hlow, hhigh⟩ := ramp_mem n hzero hone
  have hchroma := chroma_nonneg s l
  obtain ⟨hstrength, hshade⟩ := sector_range (n % 6).toNat (mul_nonneg hchroma hlow)
    (mul_le_of_le_one_right hchroma hhigh)
  unfold atSectors
  rw [strength_lift, shade_lift, hstrength, hshade, zero_add]
  exact ⟨rfl, rfl⟩

/-- No part is outside of what the strongest and the weakest are in. -/
theorem mem_range_of_parts {c : Rgb ℝ} {low high : ℝ} (hlow : low ≤ c.shade)
    (hhigh : c.strength ≤ high) : ∀ x ∈ [c.r, c.g, c.b], low ≤ x ∧ x ≤ high := by
  obtain ⟨⟨hr, hg⟩, hb⟩ := (le_min_iff.trans (and_congr_left' le_min_iff)).mp hlow
  obtain ⟨⟨hr', hg'⟩, hb'⟩ := (max_le_iff.trans (and_congr_left' max_le_iff)).mp hhigh
  simp only [List.forall_mem_cons, List.not_mem_nil, false_imp_iff, implies_true, and_true]
  exact ⟨⟨hr, hr'⟩, ⟨hg, hg'⟩, hb, hb'⟩

/-- **The colours of hues are a wheel.** Whatever the hue, the saturation and the lightness, all
parts of the colour can be shown. The sum of the strongest and the weakest part is twice the
lightness, and their difference is the saturation's share of what the lightness has room for, the
two moved into `[0, 1]` first. A whole turn further the colour is the same, and a third of a turn
further each part has moved on to the next one. -/
theorem ofHsl_turns (hue saturation lightness : ℝ) :
    let c : Rgb ℝ := ofHsl hue saturation lightness
    let s := max 0 (min 1 saturation)
    let l := max 0 (min 1 lightness)
    (∀ x ∈ [c.r, c.g, c.b], 0 ≤ x ∧ x ≤ 1) ∧
    max (max c.r c.g) c.b + min (min c.r c.g) c.b = 2 * l ∧
    max (max c.r c.g) c.b - min (min c.r c.g) c.b = (1 - |2 * l - 1|) * s ∧
    ofHsl (hue + 360) saturation lightness = c ∧
    ofHsl (hue + 120) saturation lightness = ⟨c.b, c.r, c.g⟩ := by
  obtain ⟨n, t, hzero, hone, rfl⟩ := exists_sectors hue
  intro c s l
  have hc : c = atSectors n t saturation lightness := ofHsl_sectors n hzero hone _ _
  obtain ⟨hstrength, hshade⟩ := atSectors_range n hzero hone saturation lightness
  rw [← hc] at hstrength hshade
  obtain ⟨hdark, hbright⟩ := chroma_le saturation lightness
  rw [clampUnit_eq] at hdark hbright
  have hweakest : weakest saturation lightness = l - chroma saturation lightness / 2 := by
    rw [weakest, clampUnit_eq]
  have hchroma : chroma saturation lightness = (1 - |2 * l - 1|) * s := by
    rw [chroma, clampUnit_eq, clampUnit_eq]
  refine ⟨mem_range_of_parts ?_ ?_, ?_, ?_, ?_, ?_⟩
  · rw [hshade, hweakest]
    linarith
  · rw [hstrength, hweakest]
    linarith
  · show c.strength + c.shade = 2 * l
    rw [hstrength, hshade, hweakest]
    ring
  · show c.strength - c.shade = (1 - |2 * l - 1|) * s
    rw [hstrength, hshade, ← hchroma]
    ring
  · have hturn : 60 * ((n : ℝ) + t) + 360 = 60 * (((n + 6 : ℤ) : ℝ) + t) := by
      push_cast
      ring
    rw [hturn, ofHsl_sectors _ hzero hone, atSectors_add_six, hc]
  · have hthird : 60 * ((n : ℝ) + t) + 120 = 60 * (((n + 2 : ℤ) : ℝ) + t) := by
      push_cast
      ring
    rw [hthird, ofHsl_sectors _ hzero hone, atSectors_add_two, hc]
    rfl

end Rgb

end PhasePortrait
