import ParticleAutomaton.Lattice.Topology
import ParticleAutomaton.Scalar

namespace ParticleAutomaton.Topology

variable {R : Type} [Scalar R]

/-- The place of an offset in the plane; hexagons are half a column apart from row to row. -/
def cartesian (t : Topology) (p : Point) : R × R :=
  let x : R := Scalar.ofInt p.x
  let y : R := Scalar.ofInt p.y
  match t with
  | .hex6 => (x + y / Scalar.ofInt 2, y * Scalar.sqrt (Scalar.ofInt 3) / Scalar.ofInt 2)
  | _ => (x, y)

/-- The Euclidean length of an offset. -/
def length (t : Topology) (p : Point) : R :=
  let (x, y) := t.cartesian (R := R) p
  Scalar.sqrt (x * x + y * y)

/-- The angle between two offsets that follow each other; none if one of them is zero. -/
def turnAngle (t : Topology) (previous current : Point) : Option R :=
  if previous.isZero || current.isZero then none
  else
    let (au, av) := t.cartesian (R := R) previous
    let (bu, bv) := t.cartesian (R := R) current
    some (Scalar.turn (au * bv - av * bu) (au * bu + av * bv))

end ParticleAutomaton.Topology
