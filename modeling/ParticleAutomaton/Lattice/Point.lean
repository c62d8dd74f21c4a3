namespace ParticleAutomaton

/-- A grid coordinate or the offset between two cells; `y` grows downwards. -/
structure Point where
  x : Int
  y : Int
  deriving DecidableEq, Repr, Inhabited, Hashable

namespace Point

def zero : Point := ⟨0, 0⟩

instance : Add Point := ⟨fun p q => ⟨p.x + q.x, p.y + q.y⟩⟩
instance : Sub Point := ⟨fun p q => ⟨p.x - q.x, p.y - q.y⟩⟩
instance : Neg Point := ⟨fun p => ⟨-p.x, -p.y⟩⟩

def isZero (p : Point) : Bool := p.x == 0 && p.y == 0

/-- Points are ordered by `x`, then by `y`. -/
def before (p q : Point) : Bool := p.x < q.x || (p.x == q.x && p.y < q.y)

def text (p : Point) : String := "(" ++ toString p.x ++ "," ++ toString p.y ++ ")"

theorem add_x (p q : Point) : (p + q).x = p.x + q.x := rfl
theorem add_y (p q : Point) : (p + q).y = p.y + q.y := rfl
theorem sub_x (p q : Point) : (p - q).x = p.x - q.x := rfl
theorem sub_y (p q : Point) : (p - q).y = p.y - q.y := rfl
theorem neg_x (p : Point) : (-p).x = -p.x := rfl
theorem neg_y (p : Point) : (-p).y = -p.y := rfl

theorem eq_iff {p q : Point} : p = q ↔ p.x = q.x ∧ p.y = q.y := by
  cases p; cases q; simp

theorem add_sub_cancel (p q : Point) : p + (q - p) = q := by
  rw [eq_iff, add_x, add_y, sub_x, sub_y]
  omega

theorem neg_sub (p q : Point) : -(p - q) = q - p := by
  rw [eq_iff, neg_x, neg_y, sub_x, sub_y, sub_x, sub_y]
  omega

end Point

end ParticleAutomaton
