import PhasePortrait.Scalar

/-!
# Points

Points and displacements of the plane. A length is the square root of the sum of the squares, taken
as it stands: unlike a speed it is not guarded against overflow.
-/

namespace PhasePortrait

/-- A point of the plane, or a displacement. -/
structure Point (α : Type) where
  x : α
  y : α
deriving DecidableEq

namespace Point

variable {α : Type} [Scalar α]

/-- The point moved by a displacement. -/
def add (p q : Point α) : Point α := ⟨p.x + q.x, p.y + q.y⟩

/-- The displacement from the second point to the first. -/
def sub (p q : Point α) : Point α := ⟨p.x - q.x, p.y - q.y⟩

/-- The displacement made longer by a factor. -/
def scale (p : Point α) (k : α) : Point α := ⟨p.x * k, p.y * k⟩

instance : Add (Point α) := ⟨add⟩

instance : Sub (Point α) := ⟨sub⟩

/-- The scalar product. -/
def dot (p q : Point α) : α := p.x * q.x + p.y * q.y

/-- The length of a displacement. -/
def length (p : Point α) : α := Scalar.sqrt (p.dot p)

/-- The distance between two points. -/
def distance (p q : Point α) : α := (p - q).length

/-- The corner left of and above two points. -/
def lowest (p q : Point α) : Point α := ⟨Scalar.smaller p.x q.x, Scalar.smaller p.y q.y⟩

/-- The corner right of and below two points. -/
def highest (p q : Point α) : Point α := ⟨Scalar.larger p.x q.x, Scalar.larger p.y q.y⟩

end Point

end PhasePortrait
