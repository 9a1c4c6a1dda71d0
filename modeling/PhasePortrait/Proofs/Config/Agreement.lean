import PhasePortrait.Proofs.Binary64
import PhasePortrait.Proofs.Setup

/-!
# Configurations that agree

A loop compares the configuration it has with the one it is given and keeps its engine if they are
equal in all but the size of the canvas. Equality of numbers does not see the sign of a zero, and so
neither does the comparison: what it says is an equality of the configurations without their sizes
and without the signs of their zeros (`Config.bare`), down to the numbers inside the parameters.

Being an equality, it holds along a chain of configurations, of which a loop only ever compares
neighbours.
-/

namespace PhasePortrait

namespace Binary64

/-- The number without the sign of a zero. -/
def unsigned (x : Float) : Float := if x == 0.0 then 0.0 else x

/-- **What equality says of two numbers.** They are one number, or zeros of two signs. -/
theorem unsigned_eq_of_beq {x y : Float} (h : (x == y) = true) : unsigned x = unsigned y := by
  obtain ⟨-, -, rfl | ⟨rfl, rfl⟩ | ⟨rfl, rfl⟩⟩ := Float.beq_iff_ne_nan_and_eq.mp h
  · rfl
  · decide +kernel
  · decide +kernel

open Float.Model (UnpackedFloat)

/-- Two numbers that are equal are the same, or both are zero. -/
theorem unpack_of_beq {x y : Float} (h : (x == y) = true) :
    x = y ∨ ∃ s t, x.toModel.unpack = .zero s ∧ y.toModel.unpack = .zero t := by
  obtain ⟨-, -, h | ⟨rfl, rfl⟩ | ⟨rfl, rfl⟩⟩ := Float.beq_iff_ne_nan_and_eq.mp h
  · exact .inl h
  · exact .inr ⟨.positive, .negative, rfl, rfl⟩
  · exact .inr ⟨.negative, .positive, rfl, rfl⟩

/-- The order does not see the sign of a zero either. -/
theorem compare_zero (s t : UnpackedFloat.Sign) (u : UnpackedFloat) :
    (UnpackedFloat.zero s).compare u = (UnpackedFloat.zero t).compare u ∧
      u.compare (.zero s) = u.compare (.zero t) := by
  cases u with
  | infinity sign => cases sign <;> exact ⟨rfl, rfl⟩
  | notANumber => exact ⟨rfl, rfl⟩
  | zero => exact ⟨rfl, rfl⟩
  | finite sign => cases sign <;> exact ⟨rfl, rfl⟩

theorem le_congr {x x' y y' : Float} (hx : (x == x') = true) (hy : (y == y') = true) :
    x ≤ y ↔ x' ≤ y' := by
  have hleft : x ≤ y ↔ x' ≤ y := by
    obtain rfl | ⟨s, t, hs, ht⟩ := unpack_of_beq hx
    · rfl
    · rw [le_iff_unpack, le_iff_unpack, hs, ht, UnpackedFloat.le, UnpackedFloat.le,
        (compare_zero s t _).1]
  have hright : x' ≤ y ↔ x' ≤ y' := by
    obtain rfl | ⟨s, t, hs, ht⟩ := unpack_of_beq hy
    · rfl
    · rw [le_iff_unpack, le_iff_unpack, hs, ht, UnpackedFloat.le, UnpackedFloat.le,
        (compare_zero s t _).2]
  exact hleft.trans hright

/-- Nor does it matter for finiteness which of two equal numbers is asked. -/
theorem isFinite_congr {x y : Float} (h : (x == y) = true) : x.isFinite = y.isFinite := by
  obtain rfl | ⟨s, t, hs, ht⟩ := unpack_of_beq h
  · rfl
  · show x.toModel.unpack.isFinite = y.toModel.unpack.isFinite
    rw [hs, ht]
    rfl

end Binary64

open Binary64 (unsigned_eq_of_beq isFinite_congr le_congr)

/-- The bounds without the signs of zeros. -/
def Bounds.unsigned (b : Bounds Float) : Bounds Float where
  xMin := Binary64.unsigned b.xMin
  xMax := Binary64.unsigned b.xMax
  yMin := Binary64.unsigned b.yMin
  yMax := Binary64.unsigned b.yMax

/-- Bounds that are the same differ at most in the signs of zeros. -/
theorem Bounds.unsigned_eq_of_same {b c : Bounds Float} (h : b.same c = true) :
    b.unsigned = c.unsigned := by
  simp only [Bounds.same, Bool.and_eq_true] at h
  obtain ⟨⟨⟨hxMin, hxMax⟩, hyMin⟩, hyMax⟩ := h
  simp only [Bounds.unsigned, unsigned_eq_of_beq hxMin, unsigned_eq_of_beq hxMax,
    unsigned_eq_of_beq hyMin, unsigned_eq_of_beq hyMax]

/-- And they are valid together: being valid is a comparison of the sides. -/
theorem Bounds.isValid_eq_of_same {b c : Bounds Float} (h : b.same c = true) :
    b.isValid = c.isValid := by
  simp only [Bounds.same, Bool.and_eq_true] at h
  obtain ⟨⟨⟨hxMin, hxMax⟩, hyMin⟩, hyMax⟩ := h
  unfold isValid
  simp only [Scalar.isFinite, isFinite_congr hxMin, isFinite_congr hxMax, isFinite_congr hyMin,
    isFinite_congr hyMax, le_congr hxMax hxMin, le_congr hyMax hyMin]

/-- The colour without the signs of zeros. -/
def Rgb.unsigned (c : Rgb Float) : Rgb Float where
  r := Binary64.unsigned c.r
  g := Binary64.unsigned c.g
  b := Binary64.unsigned c.b

/-- Colours that are the same differ at most in the signs of zeros. -/
theorem Rgb.unsigned_eq_of_same {c d : Rgb Float} (h : c.same d = true) :
    c.unsigned = d.unsigned := by
  simp only [Rgb.same, Bool.and_eq_true] at h
  obtain ⟨⟨hr, hg⟩, hb⟩ := h
  simp only [Rgb.unsigned, unsigned_eq_of_beq hr, unsigned_eq_of_beq hg, unsigned_eq_of_beq hb]

namespace Json

/-- The number without the sign of a zero. Only a real number can have one. -/
def Number.unsigned : Number → Number
  | natural n => natural n
  | negative n => negative n
  | real x => real (Binary64.unsigned x)

/-- Numbers of JSON that are the same differ at most in the sign of a zero; the kind of the number
is compared, too. -/
theorem Number.unsigned_eq_of_same {m n : Number} (h : m.same n = true) :
    m.unsigned = n.unsigned := by
  cases m <;> cases n <;> simp only [Number.same, Bool.false_eq_true] at h
  · rw [eq_of_beq h]
  · rw [eq_of_beq h]
  · simp only [Number.unsigned, unsigned_eq_of_beq h]

mutual

/-- The value without the signs of zeros. -/
def unsigned : Json → Json
  | null => null
  | bool b => bool b
  | number n => number n.unsigned
  | string s => string s
  | array items => array (unsignedItems items)
  | object members => object (unsignedMembers members)

/-- The items of an array, each without the signs of zeros. -/
def unsignedItems : List Json → List Json
  | [] => []
  | x :: xs => unsigned x :: unsignedItems xs

/-- The members of an object, each value without the signs of zeros. -/
def unsignedMembers : List (String × Json) → List (String × Json)
  | [] => []
  | (k, x) :: xs => (k, unsigned x) :: unsignedMembers xs

end

mutual

/-- Values that are the same differ at most in the signs of zeros. The recursion is that of the
comparison, with a lemma each for values, items and members. -/
theorem unsigned_eq_of_same {v w : Json} (h : same v w = true) : unsigned v = unsigned w := by
  cases v <;> cases w <;> simp only [same, Bool.false_eq_true] at h
  case null.null => rfl
  case bool.bool => rw [eq_of_beq h]
  case number.number => simp only [unsigned, Number.unsigned_eq_of_same h]
  case string.string => rw [eq_of_beq h]
  case array.array => simp only [unsigned, unsignedItems_eq_of_same h]
  case object.object => simp only [unsigned, unsignedMembers_eq_of_same h]

theorem unsignedItems_eq_of_same {xs ys : List Json} (h : sameItems xs ys = true) :
    unsignedItems xs = unsignedItems ys := by
  cases xs <;> cases ys <;> simp only [sameItems, Bool.false_eq_true] at h
  case nil.nil => rfl
  case cons.cons x xs y ys =>
    obtain ⟨hx, hxs⟩ := Bool.and_eq_true_iff.mp h
    simp only [unsignedItems, unsigned_eq_of_same hx, unsignedItems_eq_of_same hxs]

theorem unsignedMembers_eq_of_same {xs ys : List (String × Json)}
    (h : sameMembers xs ys = true) : unsignedMembers xs = unsignedMembers ys := by
  cases xs <;> cases ys <;> simp only [sameMembers, Bool.false_eq_true] at h
  case nil.nil => rfl
  case cons.cons x xs y ys =>
    obtain ⟨k, x⟩ := x
    obtain ⟨l, y⟩ := y
    simp only [Bool.and_eq_true] at h
    obtain ⟨⟨hk, hx⟩, hxs⟩ := h
    simp only [unsignedMembers, eq_of_beq hk, unsigned_eq_of_same hx,
      unsignedMembers_eq_of_same hxs]

end

/-- Values that are the same are of one kind, so the check of the parameters does not tell them
apart. -/
theorem kind_eq_of_same {v w : Json} (h : same v w = true) :
    v.isObject = w.isObject ∧ v.isNull = w.isNull := by
  cases v <;> cases w <;> simp only [same, Bool.false_eq_true] at h <;> exact ⟨rfl, rfl⟩

end Json

namespace Config

/-- The configuration without the size of its canvas and without the signs of its zeros. -/
def bare (c : Config) : Config where
  dx := c.dx
  dy := c.dy
  a := Binary64.unsigned c.a
  b := Binary64.unsigned c.b
  bounds := c.bounds.unsigned
  width := 0
  height := 0
  trace := c.trace
  scheme := c.scheme
  background := c.background.unsigned
  seed := c.seed
  params := c.params.unsigned

/-- **What the comparison says.** -/
theorem bare_eq_of_sameButSize {c d : Config} (h : c.sameButSize d = true) : c.bare = d.bare := by
  simp only [sameButSize, Bool.and_eq_true] at h
  obtain ⟨⟨⟨⟨⟨⟨⟨⟨⟨hdx, hdy⟩, ha⟩, hb⟩, hbounds⟩, htrace⟩, hscheme⟩, hbackground⟩, hseed⟩,
    hparams⟩ := h
  simp only [bare, eq_of_beq hdx, eq_of_beq hdy, unsigned_eq_of_beq ha, unsigned_eq_of_beq hb,
    Bounds.unsigned_eq_of_same hbounds, eq_of_beq htrace, eq_of_beq hscheme,
    Rgb.unsigned_eq_of_same hbackground, eq_of_beq hseed, Json.unsigned_eq_of_same hparams]

/-- A change that asks for no restart has found the configurations to be the same in all but their
size. -/
theorem sameButSize_of_changeTo {c next : Config} (h : c.changeTo next ≠ .restart) :
    c.sameButSize next = true := by
  cases hsame : c.sameButSize next with
  | true => rfl
  | false => exact absurd (by simp [changeTo, hsame]) h

/-- A change that asks for no restart leaves all but the size as it is. -/
theorem bare_eq_of_changeTo {c next : Config} (h : c.changeTo next ≠ .restart) :
    c.bare = next.bare :=
  bare_eq_of_sameButSize (sameButSize_of_changeTo h)

/-- A change that asks for no restart keeps a configuration valid, if the new size is one that a
canvas may have: nothing that the check looks at depends on the sign of a zero. -/
theorem check_of_changeTo {c next : Config} (h : c.changeTo next ≠ .restart)
    (hcheck : c.check = .ok ()) (hcanvas : IsCanvas next.width next.height) :
    next.check = .ok () := by
  have hsame := sameButSize_of_changeTo h
  simp only [sameButSize, Bool.and_eq_true] at hsame
  obtain ⟨⟨⟨⟨⟨⟨⟨⟨-, ha⟩, hb⟩, hbounds⟩, -⟩, -⟩, -⟩, -⟩, hparams⟩ := hsame
  obtain ⟨hobject, hnull⟩ := Json.kind_eq_of_same hparams
  obtain ⟨hvalid, -, hfinite, hfinite', hkind⟩ := check_eq_ok.mp hcheck
  rw [Bounds.isValid_eq_of_same hbounds] at hvalid
  rw [isFinite_congr ha] at hfinite
  rw [isFinite_congr hb] at hfinite'
  rw [hobject, hnull] at hkind
  exact check_eq_ok.mpr ⟨hvalid, hcanvas, hfinite, hfinite', hkind⟩

/-- A change that asks for nothing leaves the size as it is, too. -/
theorem size_eq_of_unchanged {c next : Config} (h : c.changeTo next = .unchanged) :
    c.width = next.width ∧ c.height = next.height := by
  unfold changeTo at h
  split at h
  · cases h
  · split at h
    next hsize => simpa [sameSize] using hsize
    next => cases h

end Config

end PhasePortrait
